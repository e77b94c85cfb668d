import Snapshot.Report

/-!
# Reports for reading

A heading, then a section for each category that has entries. An entry takes one line and shows the
last component of its path. Nothing in a text is escaped.
-/

namespace Snapshot.Report

def markdownLine (e : Entry) : String :=
  "- **" ++ e.name ++ "** (" ++ (Path.fileName? e.file).getD "" ++ "): " ++ e.description ++ "\n"

def markdownSection (title : String) (entries : List Entry) : String :=
  if entries.isEmpty then ""
  else "## " ++ title ++ "\n\n" ++ String.join (entries.map markdownLine) ++ "\n"

def sections (r : Report) : List (String × List Entry) :=
  [("Core Modules", r.coreModules.map CoreModule.toEntry),
   ("UI Components", r.components),
   ("React Hooks", r.hooks),
   ("Utility Functions", r.utilities),
   ("Key Types and Interfaces", r.types)]

def toMarkdown (r : Report) : String :=
  "# Project Snapshot\n\n" ++
    String.join (r.sections.map fun (title, es) => markdownSection title es)

end Snapshot.Report
