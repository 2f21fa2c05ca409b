import Highlighter.Listing.Request
import Highlighter.Proofs.Sink

/-!
# Writing a listing

The listing of a file is one text (`ListRequest.listing`), told here by its lines: one for each
record, as in `1:4-7 variable foo`, and perhaps a header before them, or the array of all of them in
a line of its own. It is written in parts, but as if at once: the sink takes the text
(`writeListing_fst`), and the writing goes well if the sink has room for all of it
(`isOk_writeListing`).
-/

namespace Highlighter

theorem TokenRecord.toLine_eq (record : TokenRecord) : record.toLine =
    Text.ofNat record.line ++ ":".toList ++ Text.ofNat record.start ++ "-".toList
      ++ Text.ofNat record.stop ++ " ".toList ++ record.category.label ++ " ".toList
      ++ record.text := by
  simp [toLine]

theorem Listing.toText_eq_ofLines (records : List TokenRecord) :
    toText records = Text.ofLines (records.map TokenRecord.toLine) := by
  rw [toText, Text.ofLines, List.flatMap_map]

namespace ListRequest

/-- The lines of the listing of a file. -/
def listingLines (manner : Manner) (path : Path) (records : List TokenRecord) : List Text :=
  match manner.format with
  | .text =>
    (if manner.headed then ["==> ".toList ++ path ++ " <==".toList] else [])
      ++ records.map fun record =>
        Text.ofNat record.line ++ ":".toList ++ Text.ofNat record.start ++ "-".toList
          ++ Text.ofNat record.stop ++ " ".toList ++ record.category.label ++ " ".toList
          ++ record.text
  | .json => [Listing.toJson records]

/-- The listing of a file. -/
def listing (manner : Manner) (path : Path) (records : List TokenRecord) : Text :=
  Text.ofLines (listingLines manner path records)

variable {manner : Manner} {path : Path} {records : List TokenRecord} {sink : Sink}

theorem listing_of_text (h : manner.format = .text) :
    listing manner path records =
      (if manner.headed then Listing.header path else []) ++ Listing.toText records := by
  have hheader : Text.ofLines ["==> ".toList ++ path ++ " <==".toList] = Listing.header path := by
    simp [Text.ofLines, Listing.header]
  rw [listing, listingLines, h, Listing.toText_eq_ofLines, ← hheader,
    funext TokenRecord.toLine_eq]
  cases manner.headed
  case false => rfl
  case true => exact Text.ofLines_append _ _

theorem listing_of_json (h : manner.format = .json) :
    listing manner path records = Listing.toJson records ++ ['\n'] := by
  rw [listing, listingLines, h]
  exact List.flatMap_singleton _ _

theorem writeListing_of_text (h : manner.format = .text) :
    writeListing manner path records sink = sink.write (listing manner path records) .io := by
  rw [writeListing, h, listing_of_text h]

/-- In JSON the line feed is written only if the array is. -/
theorem writeListing_of_json (h : manner.format = .json) :
    writeListing manner path records sink =
      if sink.fitsText (Listing.toJson records) then
        (sink.takeText (Listing.toJson records)).write ['\n'] .io
      else (sink.takeText (Listing.toJson records), .error (.json .sinkFull)) := by
  simp only [writeListing, h, Sink.write]
  cases sink.fitsText (Listing.toJson records) <;> rfl

theorem writeListing_fst (manner : Manner) (path : Path) (records : List TokenRecord)
    (sink : Sink) :
    (writeListing manner path records sink).1 = sink.takeText (listing manner path records) := by
  cases hformat : manner.format with
  | text =>
    rw [writeListing_of_text hformat]
    rfl
  | json =>
    rw [writeListing_of_json hformat, listing_of_json hformat]
    split
    next => rw [Sink.takeText_append, Sink.write]
    next hfits => rw [Sink.takeText_append_of_not_fitsText hfits]

theorem isOk_writeListing (manner : Manner) (path : Path) (records : List TokenRecord)
    (sink : Sink) :
    (writeListing manner path records sink).2.isOk =
      sink.fitsText (listing manner path records) := by
  cases hformat : manner.format with
  | text => rw [writeListing_of_text hformat, Sink.isOk_write]
  | json =>
    rw [writeListing_of_json hformat, listing_of_json hformat, Sink.fitsText_append]
    split
    next hfits => rw [hfits, Bool.true_and, Sink.isOk_write]
    next hfits =>
      rw [Bool.eq_false_iff.2 hfits, Bool.false_and]
      rfl

end ListRequest

end Highlighter
