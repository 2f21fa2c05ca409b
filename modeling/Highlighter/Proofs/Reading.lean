import Highlighter.Document

/-!
# Reading lines in order

What the lines of a document are to be compared with: the lines of a text read from
the first to the last, each in the context that the lines before it leave.

* `contextAfter ctx texts`: the context that lines leave which are read from `ctx` on;
* `ReadFrom ctx lines final`: all that is kept for `lines` follows from reading them
  from `ctx` on, which leaves `final`.

Reading may be interrupted at any line and taken up again from the context there
(`contextAfter_append`, `readFrom_append`).
-/

namespace Highlighter

/-- The context after lines that are read in order. -/
def contextAfter (ctx : Context) (texts : List Text) : Context :=
  texts.foldl (fun ctx text => (tokenizeLine ctx text).2) ctx

@[simp] theorem contextAfter_nil (ctx : Context) : contextAfter ctx [] = ctx := rfl

@[simp] theorem contextAfter_cons (ctx : Context) (text : Text) (texts : List Text) :
    contextAfter ctx (text :: texts) = contextAfter (tokenizeLine ctx text).2 texts := rfl

theorem contextAfter_append (ctx : Context) (texts texts' : List Text) :
    contextAfter ctx (texts ++ texts') = contextAfter (contextAfter ctx texts) texts' :=
  List.foldl_append

/-- What is kept for the lines, and the context after the last one, follow from reading
    them in order, from a context on. -/
inductive ReadFrom : Context → List DocumentLine → Context → Prop
  | nil {ctx : Context} : ReadFrom ctx [] ctx
  | cons {ctx final : Context} {text : Text} {rest : List DocumentLine} :
    ReadFrom (tokenizeLine ctx text).2 rest final →
      ReadFrom ctx (⟨text, ctx, (tokenizeLine ctx text).1⟩ :: rest) final

variable {ctx final : Context} {lines lines' : List DocumentLine}

/-- The context after the last line is the one that the texts leave. -/
theorem ReadFrom.final_eq (h : ReadFrom ctx lines final) :
    final = contextAfter ctx (lines.map (·.text)) := by
  induction h with
  | nil => rfl
  | cons _ ih => exact ih

/-- Every line is read in the context that the texts before it leave. -/
theorem ReadFrom.getElem?_eq (h : ReadFrom ctx lines final) (i : Nat) :
    lines[i]? = (lines.map (·.text))[i]?.map fun text =>
      ⟨text, contextAfter ctx ((lines.map (·.text)).take i),
        (tokenizeLine (contextAfter ctx ((lines.map (·.text)).take i)) text).1⟩ := by
  induction h generalizing i with
  | nil => rfl
  | cons _ ih =>
    cases i with
    | zero => rfl
    | succ i => exact ih i

/-- Reading goes over from some lines to those that follow in the context between. -/
theorem readFrom_append :
    ReadFrom ctx (lines ++ lines') final ↔
      ∃ between, ReadFrom ctx lines between ∧ ReadFrom between lines' final := by
  constructor
  · intro h
    induction lines generalizing ctx with
    | nil => exact ⟨ctx, .nil, h⟩
    | cons line lines ih =>
      cases h with
      | cons h =>
        obtain ⟨between, h₁, h₂⟩ := ih h
        exact ⟨between, .cons h₁, h₂⟩
  · rintro ⟨between, h₁, h₂⟩
    induction h₁ with
    | nil => exact h₂
    | cons _ ih => exact .cons (ih h₂)

end Highlighter
