import Snapshot.Recognizer
import Snapshot.DocComment

/-!
# Extraction

From the text of a source file to its record.
-/

namespace Snapshot

namespace Kind

def describe (k : Kind) (text : List Char) (start : Nat) : String :=
  match DocComment.textBefore text start with
  | [] => k.fallback
  | comment => String.ofList comment

def declarations (k : Kind) (content : String) : List Declaration :=
  let text := content.toList
  ((k.recognizer.recognize content).filter (k.accepts ·.name)).map fun s =>
    ⟨s.name, k.describe text s.start⟩

end Kind

def Sighting.imports (s : Sighting) : List Import :=
  match s.source with
  | none => []
  | some source =>
    let bindings := Text.trim s.name.toList
    if bindings.isEmpty || source.isEmpty then [] else
      ((bindings.splitOn ',').map (String.ofList ∘ Text.trim)).filterMap fun name =>
        if Kind.importClause.accepts name then some ⟨name, source⟩ else none

def FileRecord.ofSource (path content : String) : FileRecord where
  path := path
  functions := Kind.function.declarations content
  classes := Kind.classDef.declarations content
  interfaces := Kind.interface.declarations content
  components := Kind.component.declarations content
  hooks := Kind.hook.declarations content
  decorators := Kind.decorator.declarations content
  imports := (Kind.importClause.recognizer.recognize content).flatMap Sighting.imports

end Snapshot
