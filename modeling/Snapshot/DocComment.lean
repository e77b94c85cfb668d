import Snapshot.Text.Bytes
import Snapshot.Pattern.Search

/-!
# Doc comments

A doc comment stands between `/**` and the nearest `*/`. A declaration is described by the last one
that ends before it, wherever that is. Its text is written on one line: the stars that lead its
lines and those before the closing mark are dropped, and each stretch of blanks becomes a space.
-/

namespace Snapshot.DocComment

open Pattern

def block : Pattern :=
  concat [word "/**", blanks, group 1 (many (char .any) false), blanks, word "*/"]

def spaceOrTab : Pattern := many (char (.ofList [' ', '\t']))

def decoration : Pattern :=
  alt (seq (edge .lineStart) (many1 (seq spaceOrTab (word "*"))))
    (concat [many1 (word "*"), spaceOrTab, edge .textEnd])

def normalize (body : List Char) : List Char :=
  Text.trim (replaceAll blanks1 [' '] (replaceAll decoration [] body))

def last? (text : List Char) : Option (List Char) :=
  (block.matchesIn text).getLast?.bind fun m => (m.span? 1).map fun s => normalize (s.slice text)

/-- The text of the last doc comment before a byte offset; empty if there is none, or if the offset
falls inside a character. -/
def textBefore (text : List Char) (offset : Nat) : List Char :=
  ((Text.takeBytes? offset text).bind last?).getD []

def locate (content : String) (offset : Nat) : String :=
  String.ofList (textBefore content.toList offset)

end Snapshot.DocComment
