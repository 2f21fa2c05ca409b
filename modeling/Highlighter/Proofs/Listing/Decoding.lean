import Highlighter.Proofs.Json.Written
import Highlighter.Proofs.Listing.Records
import Highlighter.Proofs.Listing.Writing

/-!
# Listings are read back

Whoever gets a listing has the records again, in either format.

* As text, every record is a line. Its numbers and its label hold none of the marks behind them, so
  that these are where the line comes apart (`ofLine?_toLine`); and the text at its end holds no
  line feed, so that the lines are where the listing comes apart (`isLines_writeListing`).
* As JSON, the listing is one line that shows all its characters, and what it says in JSON are the
  records (`isJsonLine_writeListing`).

The reading is told here, on its own: `TokenRecord.ofLine?` takes a line apart mark by mark, and
`Listing.ofJson?` takes the members of the objects by their keys, from whatever JSON says of the
text.
-/

namespace Highlighter

namespace Json.Value

/-- The natural number that a value is. -/
def natural? : Value → Option Nat
  | .integer (.ofNat n) => some n
  | _ => none

/-- The text that a value is. -/
def text? : Value → Option Text
  | .string text => some text
  | _ => none

end Json.Value

namespace TokenRecord

/-! ## Reading a record -/

/-- The record that a line says: the number of its line, its start and its stop, each in digits,
    the label of its category, and its text, with a mark between each of them and the next. -/
def ofLine? (line : Text) : Option TokenRecord := do
  let (number, rest) ← Text.cut? ':' line
  let (start, rest) ← Text.cut? '-' rest
  let (stop, rest) ← Text.cut? ' ' rest
  let (label, text) ← Text.cut? ' ' rest
  some ⟨← Text.toNat? number, ← Text.toNat? start, ← Text.toNat? stop, ← Category.ofLabel? label,
    text⟩

/-- The record that a value of JSON says, by the members of an object. -/
def ofValue? : Json.Value → Option TokenRecord
  | .object members => do
    let line ← (← members.lookup "line".toList).natural?
    let start ← (← members.lookup "start".toList).natural?
    let stop ← (← members.lookup "end".toList).natural?
    let label ← (← members.lookup "kind".toList).text?
    let text ← (← members.lookup "text".toList).text?
    some ⟨line, start, stop, ← Category.ofLabel? label, text⟩
  | _ => none

end TokenRecord

/-- The records that a text says in JSON. -/
def Listing.ofJson? (text : Text) : Option (List TokenRecord) :=
  match Json.read? text with
  | some (.array items) => items.mapM TokenRecord.ofValue?
  | _ => none

namespace TokenRecord

variable (record : TokenRecord)

theorem ofLine?_toLine : ofLine? record.toLine = some record := by
  have hlabel : ' ' ∉ record.category.label := by
    cases record.category <;> decide
  have hcut (mark : Char) (hmark : mark.isDigit = false) (n : Nat) (rest : Text) :
      Text.cut? mark (Text.ofNat n ++ mark :: rest) = some (Text.ofNat n, rest) :=
    Text.cut?_append (Text.not_mem_ofNat hmark n) rest
  have hline : record.toLine =
      Text.ofNat record.line ++ ':' :: (Text.ofNat record.start ++ '-' :: (Text.ofNat record.stop ++
        ' ' :: (record.category.label ++ ' ' :: record.text))) := by
    simp [toLine]
  rw [hline, ofLine?]
  simp [hcut, Text.cut?_append hlabel, Text.toNat?_ofNat, Category.ofLabel?_label]

theorem newline_not_mem_toLine (h : '\n' ∉ record.text) : '\n' ∉ record.toLine := by
  have hlabel : '\n' ∉ record.category.label := by
    cases record.category <;> decide
  have hdigits := Text.not_mem_ofNat (c := '\n') (by decide)
  simp [toLine, hdigits, hlabel, h]

/-- The value of JSON for a record. -/
def toValue : Json.Value :=
  .object
    [("line".toList, .integer record.line),
      ("start".toList, .integer record.start),
      ("end".toList, .integer record.stop),
      ("kind".toList, .string record.category.label),
      ("text".toList, .string record.text)]

theorem ofValue?_toValue : ofValue? record.toValue = some record := by
  simp [ofValue?, toValue, List.lookup_cons, Json.Value.natural?, Json.Value.text?,
    Category.ofLabel?_label]

theorem written_toJson : Json.Written record.toJson record.toValue :=
  Json.written_object
    [("line".toList, Text.ofNat record.line, .integer record.line),
      ("start".toList, Text.ofNat record.start, .integer record.start),
      ("end".toList, Text.ofNat record.stop, .integer record.stop),
      ("kind".toList, Json.string record.category.label, .string record.category.label),
      ("text".toList, Json.string record.text, .string record.text)]
    (by simp [Json.written_ofNat, Json.written_string])

end TokenRecord

namespace Listing

variable {records : List TokenRecord}

theorem written_toJson (records : List TokenRecord) :
    Json.Written (toJson records) (.array (records.map TokenRecord.toValue)) := by
  have := Json.written_array
    (records.map fun record => (record.toJson, record.toValue))
    (List.forall_mem_map.2 fun record _ => record.written_toJson)
  rwa [List.map_map, List.map_map] at this

theorem ofJson?_toJson (records : List TokenRecord) :
    ofJson? (toJson records ++ ['\n']) = some records := by
  have hread : Json.read? (toJson records ++ ['\n']) = _ :=
    (written_toJson records).read?_eq (by simp [Json.isSpace])
  have hrecords : TokenRecord.ofValue? ∘ TokenRecord.toValue = some :=
    funext TokenRecord.ofValue?_toValue
  rw [ofJson?, hread]
  dsimp only
  rw [List.mapM_map, hrecords]
  exact List.mapM_pure.trans (congrArg some (List.map_id' records))

/-! ## Listings as written -/

/-- What is written is a line for each record, ended by a line feed, and each says its record. -/
def IsLines (written : List UInt8) (records : List TokenRecord) : Prop :=
  ∃ text lines, Text.ofBytes? written = some text ∧ Text.splitOn '\n' text = lines ++ [[]] ∧
    lines.map TokenRecord.ofLine? = records.map some

/-- What is written is one line, ended by a line feed, that shows all its characters and says the
    records in JSON. -/
def IsJsonLine (written : List UInt8) (records : List TokenRecord) : Prop :=
  ∃ line, Text.ofBytes? written = some (line ++ ['\n']) ∧ (∀ c ∈ line, 0x20 ≤ c.toNat) ∧
    ofJson? (line ++ ['\n']) = some records

theorem splitOn_toText (h : ∀ record ∈ records, '\n' ∉ record.text) :
    Text.splitOn '\n' (toText records) = records.map TokenRecord.toLine ++ [[]] := by
  rw [toText_eq_ofLines]
  exact Text.splitOn_ofLines
    (List.forall_mem_map.2 fun record hmem => record.newline_not_mem_toLine (h record hmem))

theorem isLines_writeListing (h : ∀ record ∈ records, '\n' ∉ record.text) (skip : Bool)
    (path : Path) :
    IsLines (ListRequest.writeListing ⟨.text, skip, false⟩ path records {}).1.written records := by
  rw [ListRequest.writeListing_fst, Sink.written_takeText, ListRequest.listing_of_text rfl]
  refine ⟨_, _, Text.ofBytes?_bytes _, splitOn_toText h, ?_⟩
  rw [List.map_map]
  exact List.map_congr_left fun record _ => record.ofLine?_toLine

theorem isJsonLine_writeListing (skip headed : Bool) (path : Path) (records : List TokenRecord) :
    IsJsonLine (ListRequest.writeListing ⟨.json, skip, headed⟩ path records {}).1.written
      records := by
  rw [ListRequest.writeListing_fst, Sink.written_takeText, ListRequest.listing_of_json rfl]
  exact ⟨_, Text.ofBytes?_bytes _, (written_toJson records).shown, ofJson?_toJson records⟩

/-- Records are those of a text, and they are in order. -/
structure InOrder (source : Text) (records : List TokenRecord) : Prop where
  /-- They come line by line, and on a line by their starts. -/
  ordered : records.Pairwise TokenRecord.Precedes
  /-- Each has the text that stands between its positions on the line of its number. -/
  stands : ∀ record ∈ records, ∃ i line, record.line = i + 1 ∧
    (splitLines source)[i]? = some line ∧
    Text.slice? record.start record.stop line = some record.text

end Listing

namespace Document

variable {source : Text} {skip : Bool}

theorem inOrder_records : Listing.InOrder source ((ofText source).records skip) where
  ordered := pairwise_precedes_records
  stands record hmem := by
    obtain ⟨hpos, line, hline, hstands⟩ := exists_line_of_mem_records hmem
    exact ⟨record.line - 1, line, (Nat.sub_add_cancel hpos).symm, hline, hstands.slice?_eq⟩

theorem records_true (document : Document) :
    document.records true =
      (document.records false).filter fun record => record.category.label ≠ "none".toList := by
  have hlabel (category : Category) :
      (category == .unclassified) = decide (category.label = "none".toList) := by
    cases category <;> decide
  rw [records, records, List.filter_filter]
  refine List.filter_congr fun record _ => ?_
  simp [hlabel]

end Document

open Listing ListRequest in
/-- The records of a source can be had again from its listing in either format; they are in order
    and have their texts from the source, and skipping tokens of no category skips nothing else. -/
theorem listing_decodes (source : Text) (skip headed : Bool) (path : Path) :
    let records := (Document.ofText source).records skip
    IsLines (writeListing ⟨.text, skip, false⟩ path records {}).1.written records ∧
      IsJsonLine (writeListing ⟨.json, skip, headed⟩ path records {}).1.written records ∧
      InOrder source records ∧
      (Document.ofText source).records true =
        ((Document.ofText source).records false).filter fun record =>
          record.category.label ≠ "none".toList :=
  ⟨isLines_writeListing (fun _ => Document.newline_not_mem_text) skip path,
    isJsonLine_writeListing skip headed path _, Document.inOrder_records,
    Document.records_true _⟩

end Highlighter
