import WaveNotebook.Config.Basic
import WaveNotebook.Document.Tree
import WaveNotebook.Document.Writer

/-!
# Settings documents

Settings are written as a block of fields under the key `workspace`, and are read
from there or, if that key is missing, from the top level. A missing document and
one that says nothing have the defaults.
-/

namespace WaveNotebook.Config

/-- The key of the block that holds the settings. -/
def sectionKey : String := "workspace"

/-- Settings as a document. -/
def toDocument (c : Config) : List Char :=
  sectionKey.toList ++ [':', '\n'] ++ Document.writeFields Document.layout 2 c.toRecord

/-- The fields of a mapping whose keys are texts. -/
def namedFields (fields : List (Datum × Document.Tree)) : Record :=
  fields.filterMap fun f => f.1.text?.map (·, f.2.toDatum)

/-- The settings that a document at a path says. -/
def ofTree (path : String) : Option Document.Tree → Except Fault Config
  | none | some (.leaf .null) => .ok default
  | some (.mapping fields) =>
    match (Document.Tree.field? fields sectionKey).getD (.mapping fields) with
    | .mapping fields => ofRecord (namedFields fields)
    | _ => .error (.setting (.section path))
  | some _ => .error (.setting (.topLevel path))

/-- The settings of a document at a path, which may be missing. -/
def ofDocument (path : String) (text : Option (List Char)) : Except Fault Config :=
  match text.map Document.treeOf with
  | none => .ok default
  | some (.ok t) => ofTree path t
  | some (.error (.node e)) => .error (.document path e)
  | some (.error (.scalar f)) => .error (.numeric f)

end WaveNotebook.Config
