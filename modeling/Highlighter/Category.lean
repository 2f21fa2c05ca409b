import Highlighter.Text

/-!
# Categories

The *category* of a token says how it is coloured. Every category has a *label*,
under which it is listed; labels are all different (`ofLabel?_label`).
-/

namespace Highlighter

/-- How a token is coloured. -/
inductive Category where
  /-- A word that leads a statement. -/
  | keyword
  /-- Any other word. -/
  | name
  /-- A word to which a reference is taken. -/
  | reference
  /-- A word after a dot. -/
  | property
  | number
  | string
  | operator
  | bracket
  | punctuation
  | decorator
  | comment
  /-- A character that belongs to nothing else. -/
  | unclassified
deriving DecidableEq, Repr, Inhabited

namespace Category

/-- All categories, in their order. -/
def all : List Category :=
  [keyword, name, reference, property, number, string, operator, bracket,
    punctuation, decorator, comment, unclassified]

/-- The name under which a category is listed. -/
def label : Category → Text
  | keyword => "keyword".toList
  | name => "variable".toList
  | reference => "variable-special".toList
  | property => "property-name".toList
  | number => "number".toList
  | string => "string".toList
  | operator => "operator".toList
  | bracket => "bracket".toList
  | punctuation => "punctuation".toList
  | decorator => "annotation".toList
  | comment => "comment".toList
  | unclassified => "none".toList

/-- The category of a label. -/
def ofLabel? (text : Text) : Option Category :=
  all.find? fun category => category.label == text

/-- The place of a category in the order of all of them. -/
def index (category : Category) : Nat :=
  all.idxOf category

theorem ofLabel?_label (category : Category) : ofLabel? category.label = some category := by
  cases category <;> decide

end Category

end Highlighter
