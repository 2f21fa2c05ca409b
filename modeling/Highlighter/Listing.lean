import Highlighter.Document
import Highlighter.Listing.Json

/-!
# Listings

A *listing* is the tokens of a document, one *record* each, in the order of the
document: its line (counted from one), its span, its category and its text. The
tokens that belong to no category may be left out.

A listing is written as text, one line per record (`ListFormat.text`), or as JSON, one
array of objects (`ListFormat.json`).
-/

namespace Highlighter

/-- A token of a document, with its line and its text. -/
structure TokenRecord where
  /-- The number of the line, counted from one. -/
  line : Nat
  start : Nat
  stop : Nat
  category : Category
  text : Text
deriving DecidableEq

namespace Document

/-- The records of the tokens of a line. -/
def lineRecords (number : Nat) (line : DocumentLine) : List TokenRecord :=
  line.tokens.map fun token =>
    ⟨number, token.span.start, token.span.stop, token.category,
      (token.text? line.text).getD []⟩

/-- The records of lines, of which the first has the given number. -/
def recordsFrom (number : Nat) : List DocumentLine → List TokenRecord
  | [] => []
  | line :: rest => lineRecords number line ++ recordsFrom (number + 1) rest

/-- The records of a document, without the tokens of no category if these are skipped. -/
def records (document : Document) (skipUnclassified : Bool) : List TokenRecord :=
  (recordsFrom 1 document.lines).filter fun record =>
    !(skipUnclassified && record.category == .unclassified)

end Document

/-! ## Formats -/

/-- The ways to write a listing. -/
inductive ListFormat where
  | text
  | json
deriving DecidableEq

namespace ListFormat

/-- The format of a name, in which capitals do not matter. -/
def ofName? (name : Text) : Option ListFormat :=
  -- no capital outside ASCII belongs to a letter of these names
  let lower := name.map Char.toLower
  if lower = "text".toList ∨ lower = "txt".toList then some text
  else if lower = "json".toList then some json
  else none

end ListFormat

namespace TokenRecord

/-- A record as a line of text. -/
def toLine (record : TokenRecord) : Text :=
  Text.ofNat record.line ++ ':' :: Text.ofNat record.start ++ '-' :: Text.ofNat record.stop
    ++ ' ' :: record.category.label ++ ' ' :: record.text

/-- A record as an object of JSON. -/
def toJson (record : TokenRecord) : Text :=
  Json.object
    [("line".toList, Text.ofNat record.line),
      ("start".toList, Text.ofNat record.start),
      ("end".toList, Text.ofNat record.stop),
      ("kind".toList, Json.string record.category.label),
      ("text".toList, Json.string record.text)]

end TokenRecord

namespace Listing

/-- The listing of records as text. -/
def toText (records : List TokenRecord) : Text :=
  records.flatMap fun record => record.toLine ++ ['\n']

/-- The listing of records as JSON. -/
def toJson (records : List TokenRecord) : Text :=
  Json.array (records.map TokenRecord.toJson)

/-- What stands before the listing of a file if there are several. -/
def header (path : Text) : Text :=
  "==> ".toList ++ path ++ " <==\n".toList

end Listing

end Highlighter
