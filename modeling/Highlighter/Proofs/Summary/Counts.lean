import Highlighter.Listing
import Highlighter.Proofs.Document.Reassembly
import Highlighter.Summary
import Mathlib.Data.List.Nodup

/-!
# What a summary counts

A summary agrees with the listing of the same source: it counts its records, category by category,
in the order in which the categories first appear there (`ofSource_agrees_records`).

The summary walks over the tokens of a document line by line, and the listing makes records of all
of them before it leaves any out; both come upon the same categories (`map_category_records`).

*Counting* one more of a category changes the counts in one place: there is one more of the
category, or it comes last, with one (`Counts.increment_cases`). So at any time the counts are
those of the categories so far (`Counts.Tallies.increment`).
-/

namespace Highlighter

variable {category : Category} {categories : List Category} {counts : Counts}

namespace Counts

/-! ## One more of a category -/

/-- A category that was not counted before comes last, and any other keeps its place. -/
theorem increment_cases (counts : Counts) (category : Category) :
    category ∉ counts.map Prod.fst ∧ counts.increment category = counts ++ [(category, 1)] ∨
      ∃ before n after, counts = before ++ (category, n) :: after ∧
        counts.increment category = before ++ (category, n + 1) :: after := by
  induction counts with
  | nil => exact .inl ⟨List.not_mem_nil, rfl⟩
  | cons first rest ih =>
    obtain ⟨counted, n⟩ := first
    by_cases heq : counted = category
    · subst heq
      exact .inr ⟨[], n, rest, rfl, if_pos rfl⟩
    · rw [increment, if_neg heq]
      rcases ih with ⟨hnew, hlast⟩ | ⟨before, m, after, hrest, hmore⟩
      · refine .inl ⟨List.not_mem_cons_of_ne_of_not_mem (Ne.symm heq) hnew, ?_⟩
        rw [hlast, List.cons_append]
      · refine .inr ⟨(counted, n) :: before, m, after, ?_, ?_⟩
        · rw [hrest, List.cons_append]
        · rw [hmore, List.cons_append]

/-- Where categories are counted once, a category is counted with one number. -/
theorem mem_iff_of_nodup {before after : Counts} {n m : Nat}
    (h : ((before ++ (category, n) :: after).map Prod.fst).Nodup) :
    (category, m) ∈ before ++ (category, n) :: after ↔ m = n := by
  rw [List.map_append, List.map_cons, List.nodup_middle, List.nodup_cons, List.mem_append,
    not_or] at h
  obtain ⟨⟨hbefore, hafter⟩, -⟩ := h
  have hbefore' : (category, m) ∉ before := fun hmem => hbefore (List.mem_map.2 ⟨_, hmem, rfl⟩)
  have hafter' : (category, m) ∉ after := fun hmem => hafter (List.mem_map.2 ⟨_, hmem, rfl⟩)
  simp [hbefore', hafter']

theorem total_increment (counts : Counts) (category : Category) :
    (counts.increment category).total = counts.total + 1 := by
  have hsum (counts : Counts) : counts.total = (counts.map Prod.snd).sum := rfl
  rcases increment_cases counts category with ⟨-, hlast⟩ | ⟨before, n, after, rfl, hmore⟩
  · simp [hsum, hlast]
  · simp [hsum, hmore]
    omega

/-! ## Counts of a list -/

/-- Counts are those of a list of categories. -/
structure Tallies (counts : Counts) (categories : List Category) : Prop where
  /-- A category is counted as often as it appears, if it appears at all. -/
  mem_iff (category : Category) (n : Nat) :
    (category, n) ∈ counts ↔ n = categories.count category ∧ 0 < n
  /-- The categories are in the order in which they first appear. -/
  ordered : (counts.map Prod.fst).Pairwise fun a b => categories.idxOf a < categories.idxOf b

theorem tallies_nil : Tallies [] [] where
  mem_iff _ _ := by simp
  ordered := .nil

namespace Tallies

theorem nodup (h : counts.Tallies categories) : (counts.map Prod.fst).Nodup :=
  List.nodup_iff_pairwise_ne.2 (h.ordered.imp fun hlt heq => absurd (heq ▸ hlt) (Nat.lt_irrefl _))

theorem mem_keys_iff (h : counts.Tallies categories) :
    category ∈ counts.map Prod.fst ↔ category ∈ categories := by
  rw [List.mem_map, ← List.count_pos_iff]
  constructor
  · rintro ⟨⟨_, n⟩, hmem, rfl⟩
    obtain ⟨rfl, hpos⟩ := (h.mem_iff _ n).1 hmem
    exact hpos
  · exact fun hpos => ⟨_, (h.mem_iff category _).2 ⟨rfl, hpos⟩, rfl⟩

/-- What is found for a category is how often it appears. -/
theorem lookup_eq (h : counts.Tallies categories) (category : Category) :
    (counts.lookup category).getD 0 = categories.count category := by
  rcases hfound : counts.lookup category with _ | n
  · have hnew : category ∉ counts.map Prod.fst := fun hmem => by
      obtain ⟨entry, hentry, rfl⟩ := List.mem_map.1 hmem
      simpa using List.lookup_eq_none_iff.1 hfound entry hentry
    rw [h.mem_keys_iff, ← List.count_eq_zero] at hnew
    exact hnew.symm
  · obtain ⟨before, after, hcounts, -⟩ := List.lookup_eq_some_iff.1 hfound
    have hmem : (category, n) ∈ counts := by simp [hcounts]
    exact ((h.mem_iff category n).1 hmem).1

/-- Categories that have appeared stay in their order, whatever appears after them. -/
theorem ordered_append (h : counts.Tallies categories) (later : List Category) :
    (counts.map Prod.fst).Pairwise fun a b =>
      (categories ++ later).idxOf a < (categories ++ later).idxOf b := by
  refine h.ordered.imp_of_mem fun ha hb hlt => ?_
  rwa [List.idxOf_append_of_mem (h.mem_keys_iff.1 ha),
    List.idxOf_append_of_mem (h.mem_keys_iff.1 hb)]

/-- A category that has not appeared before comes last. -/
theorem concat (h : counts.Tallies categories) (hnew : category ∉ categories) :
    Tallies (counts ++ [(category, 1)]) (categories ++ [category]) := by
  refine ⟨fun c m => ?_, ?_⟩
  · rw [List.mem_append, h.mem_iff, List.mem_singleton, Prod.mk.injEq, List.count_append,
      List.count_singleton]
    by_cases heq : c = category
    · subst heq
      simp only [List.count_eq_zero.2 hnew, BEq.rfl, if_true, true_and]
      omega
    · simp [heq, Ne.symm heq]
  · rw [List.map_append, List.pairwise_append]
    refine ⟨h.ordered_append _, List.pairwise_singleton .., fun c hc d hd => ?_⟩
    obtain rfl : d = category := List.mem_singleton.1 hd
    have hmem := h.mem_keys_iff.1 hc
    rw [List.idxOf_append_of_mem hmem, List.idxOf_append_of_notMem hnew]
    exact Nat.lt_of_lt_of_le (List.idxOf_lt_length_iff.2 hmem) (Nat.le_add_right ..)

/-- A category that has appeared before stays where it is, and there is one more of it. -/
theorem again {before after : Counts} {n : Nat}
    (h : Tallies (before ++ (category, n) :: after) categories) :
    Tallies (before ++ (category, n + 1) :: after) (categories ++ [category]) := by
  have hkeys : (before ++ (category, n + 1) :: after).map Prod.fst =
      (before ++ (category, n) :: after).map Prod.fst := by simp
  refine ⟨fun c m => ?_, hkeys ▸ h.ordered_append _⟩
  obtain ⟨hn, -⟩ := (h.mem_iff category n).1 (by simp)
  by_cases heq : c = category
  · subst heq
    rw [mem_iff_of_nodup (hkeys ▸ h.nodup), List.count_append, List.count_singleton_self]
    omega
  · have hother := h.mem_iff c m
    simp only [List.mem_append, List.mem_cons, Prod.mk.injEq, heq, false_and, false_or] at hother ⊢
    simp [hother, List.count_append, Ne.symm heq]

/-- Counting one more of a category, which appears next. -/
theorem increment (h : counts.Tallies categories) (category : Category) :
    (counts.increment category).Tallies (categories ++ [category]) := by
  rcases increment_cases counts category with ⟨hnew, hlast⟩ | ⟨before, n, after, rfl, hmore⟩
  · rw [hlast]
    exact h.concat (mt h.mem_keys_iff.2 hnew)
  · rw [hmore]
    exact h.again

/-- Counting one category after the other, all of which appear next. -/
theorem foldl (h : counts.Tallies categories) (later : List Category) :
    Tallies (later.foldl Counts.increment counts) (categories ++ later) := by
  induction later generalizing categories counts with
  | nil => rwa [List.append_nil]
  | cons category later ih =>
    rw [List.append_cons]
    exact ih (h.increment category)

example : [Category.name, .operator, .name, .comment].foldl Counts.increment [] =
    [(.name, 2), (.operator, 1), (.comment, 1)] := by decide

end Tallies

/-- The total is how many categories were counted, one after the other. -/
theorem total_foldl (counts : Counts) (later : List Category) :
    total (later.foldl increment counts) = counts.total + later.length := by
  induction later generalizing counts with
  | nil => rfl
  | cons category later ih =>
    rw [List.foldl_cons, ih, total_increment, List.length_cons]
    omega

end Counts

/-! ## The records of a document -/

namespace Document

theorem map_category_recordsFrom (number : Nat) (lines : List DocumentLine) :
    (recordsFrom number lines).map (·.category) =
      lines.flatMap fun line => line.tokens.map (·.category) := by
  induction lines generalizing number with
  | nil => rfl
  | cons line lines ih =>
    rw [recordsFrom, List.map_append, ih, lineRecords, List.map_map]
    rfl

/-- The categories of the records are those that a summary counts. -/
theorem map_category_records (document : Document) :
    (document.records false).map (·.category) = Summary.categories document := by
  rw [records, Summary.categories, ← map_category_recordsFrom 1]
  simp

/-- Every record is listed either way, unless it is of no category. -/
theorem length_records_skip (document : Document) :
    (document.records true).length +
        ((document.records false).map (·.category)).count .unclassified =
      (document.records false).length := by
  have hall : document.records false = recordsFrom 1 document.lines := by simp [records]
  rw [hall, records, ← List.countP_eq_length_filter, List.count, List.countP_map, Nat.add_comm,
    List.length_eq_countP_add_countP ((· == .unclassified) ∘ TokenRecord.category)]
  congr 2
  funext record
  simp [beq_eq_decide]

end Document

namespace Summary

/-- The summary of a source agrees with the listing of it: it says how many lines there are and how
    many records of each category, in the order in which the categories first appear, each of them
    once; in total, that is all of the records; without those of no category, it is those that are
    listed if these are skipped. -/
theorem ofSource_agrees_records (path source : Text) :
    let document := Document.ofText source
    let records := document.records false
    let summary := ofSource path source
    summary.lines = document.lineCount ∧
      summary.lines = source.count '\n' + 1 ∧
      summary.counts.Tallies (records.map (·.category)) ∧
      (summary.counts.map Prod.fst).Nodup ∧
      summary.total = records.length ∧
      (document.records true).length + (summary.counts.lookup .unclassified).getD 0 =
        summary.total := by
  intro document records summary
  have htallies : summary.counts.Tallies (records.map (·.category)) := by
    rw [Document.map_category_records]
    exact Counts.tallies_nil.foldl _
  have htotal : summary.total = records.length := by
    rw [← List.length_map, Document.map_category_records, ← Nat.zero_add (List.length _)]
    exact Counts.total_foldl [] _
  refine ⟨rfl, Document.lineCount_ofText source, htallies, htallies.nodup, htotal, ?_⟩
  rw [htallies.lookup_eq, htotal]
  exact document.length_records_skip

end Summary

end Highlighter
