import Snapshot.Report.Summary

/-!
# Configuration

What a run of the program scans, what it leaves out, and how it sorts what it finds.
-/

namespace Snapshot

inductive ErrorPolicy
  | abort
  | skip
  deriving DecidableEq, Repr

def ErrorPolicy.name : ErrorPolicy → String
  | abort => "abort"
  | skip => "skip"

def ErrorPolicy.ofName? : String → Option ErrorPolicy
  | "abort" => some abort
  | "skip" => some skip
  | _ => none

structure Config where
  root : String := "."
  excludedDirs : List String := ["node_modules", "dist", "build", "public", ".git"]
  sourceSuffixes : List String := [".ts", ".tsx"]
  excludedSuffixes : List String := [".d.ts", ".test.ts", ".spec.ts"]
  keywords : Keywords := .standard
  ignorePatterns : List String := []
  respectGitignore : Bool := false
  errorPolicy : ErrorPolicy := .abort
  deriving DecidableEq, Repr

end Snapshot
