import UsageCensus.Census.LineOwnership
import UsageCensus.Census.PropSurface
import UsageCensus.Proofs.Sums

/-!
# Totals of codebases and of all files

A counter is a number in the sums that each file adds to (`IsCounter`), and a mark is a property
of the sums that each file may give them (`IsMark`). Over all files a counter is the sum of what
it is for the codebases, in whatever order the files of several codebases came
(`IsCounter.overall_eq`), and a mark is there if it is there for one of them
(`IsMark.overall_iff`). A table of counts is a counter at each key and a mark of each key, so the
tables add up key by key (`isSum_of_counters`). A property of sums and of the files that they are of
is shown for the whole and for each codebase at once, file by file (`eachOf_ofMeasures`).
-/

namespace UsageCensus

open UsageCensus.Number

/-- A table of counts is the sum of others, key by key: it has the keys that one of them has. -/
structure Table.IsSum (total : Table String Nat) (parts : List (Table String Nat)) : Prop where
  keys : ∀ key, key ∈ total.keys ↔ ∃ part ∈ parts, key ∈ part.keys
  counts : ∀ key, total.getD key 0 = sumOf (fun part => part.getD key 0) parts

namespace Census

variable {τ ρ : Type} [Totals τ ρ]

namespace Breakdown

/-- Measures that are added one after the other, each to the sums of a codebase. -/
def ofMeasures (measures : List (String × ρ)) : Breakdown τ :=
  measures.foldl (fun totals (codebase, measure) => totals.add codebase measure) .empty

/-- The counters and the tables of all files are the sums of those of the codebases. -/
structure IsSum (counters : List (τ → Nat)) (tables : List (τ → Table String Nat))
    (totals : Breakdown τ) : Prop where
  counters : ∀ counter ∈ counters,
    counter totals.overall = sumOf counter totals.byCodebase.values
  tables : ∀ table ∈ tables, (table totals.overall).IsSum (totals.byCodebase.values.map table)

/-- A property of sums, and of the files that they are of: it holds over all files, and over the
files of each codebase. -/
structure EachOf {α : Type} (codebaseOf : α → String) (P : List α → τ → Prop) (files : List α)
    (totals : Breakdown τ) : Prop where
  overall : P files totals.overall
  codebases : ∀ codebase, P (files.filter fun file => codebaseOf file == codebase)
    ((totals.byCodebase.get? codebase).getD Totals.zero)

theorem EachOf.imp {α : Type} {codebaseOf : α → String} {P Q : List α → τ → Prop} {files : List α}
    {totals : Breakdown τ} (h : totals.EachOf codebaseOf P files)
    (himp : ∀ files sums, P files sums → Q files sums) : totals.EachOf codebaseOf Q files :=
  ⟨himp _ _ h.overall, fun codebase => himp _ _ (h.codebases codebase)⟩

end Breakdown

open Breakdown

theorem ofMeasures_concat (measures : List (String × ρ)) (codebase : String) (measure : ρ) :
    (ofMeasures (measures ++ [(codebase, measure)]) : Breakdown τ)
      = (ofMeasures measures).add codebase measure := by
  rw [ofMeasures, List.foldl_append]
  rfl

/-- What holds of no file and is kept when a file is added holds of the sums of any files. -/
theorem eachOf_ofMeasures {α : Type} {codebaseOf : α → String} {measure : α → ρ}
    {P : List α → τ → Prop} (hzero : P [] Totals.zero)
    (hadd : ∀ files sums file, P files sums →
      P (files ++ [file]) (Totals.add sums (measure file)))
    (files : List α) :
    (ofMeasures (files.map fun file => (codebaseOf file, measure file)) : Breakdown τ).EachOf
      codebaseOf P files := by
  induction files using List.reverseRecOn with
  | nil => exact ⟨hzero, fun _ => hzero⟩
  | append_singleton files file ih =>
    rw [List.map_append, List.map_singleton, ofMeasures_concat]
    refine ⟨hadd _ _ _ ih.overall, fun codebase => ?_⟩
    rw [Breakdown.add, Table.get?_update, List.filter_append]
    by_cases h : codebase = codebaseOf file
    · subst h
      rw [if_pos rfl, List.filter_cons_of_pos (by simp)]
      exact hadd _ _ _ (ih.codebases _)
    · have hne : ¬(codebaseOf file == codebase) = true := by simpa using Ne.symm h
      rw [if_neg h, List.filter_cons, if_neg hne, List.filter_nil, List.append_nil]
      exact ih.codebases codebase

/-- What holds of no file and is kept by each file holds of the sums of every codebase. -/
theorem forall_byCodebase {P : τ → Prop} (hzero : P Totals.zero)
    (hadd : ∀ sums, P sums → ∀ measure : ρ, P (Totals.add sums measure))
    (measures : List (String × ρ)) :
    ∀ sums ∈ (ofMeasures measures : Breakdown τ).byCodebase.values, P sums := by
  have hentries : ∀ entry ∈ (ofMeasures measures : Breakdown τ).byCodebase.entries, P entry.2 := by
    unfold ofMeasures
    apply List.foldlRecOn (motive := fun totals : Breakdown τ =>
      ∀ entry ∈ totals.byCodebase.entries, P entry.2)
    · exact fun entry h => by cases h
    · rintro totals h ⟨codebase, measure⟩ -
      refine Table.forall_update (P := fun _ => P) h (hadd _ ?_ measure)
      cases hget : totals.byCodebase.get? codebase with
      | none => exact hzero
      | some sums => exact h (codebase, sums) (Table.get?_eq_some_iff.1 hget)
  intro sums hsums
  obtain ⟨entry, hentry, rfl⟩ := List.mem_map.1 hsums
  exact hentries entry hentry

/-! ## Counters -/

structure IsCounter (counter : τ → Nat) (count : ρ → Nat) : Prop where
  zero : counter Totals.zero = 0
  add : ∀ sums measure, counter (Totals.add sums measure) = counter sums + count measure

namespace IsCounter

variable {counter counter' : τ → Nat} {count count' : ρ → Nat}

theorem plus (h : IsCounter counter count) (h' : IsCounter counter' count') :
    IsCounter (fun sums => counter sums + counter' sums)
      (fun measure => count measure + count' measure) where
  zero := by rw [h.zero, h'.zero]
  add sums measure := by
    rw [h.add, h'.add]
    omega

/-- A file adds the same to the sums of its codebase and to those of all files. -/
theorem sumOf_add (h : IsCounter counter count) (totals : Breakdown τ) (codebase : String)
    (measure : ρ) :
    sumOf counter (totals.add codebase measure).byCodebase.values
      = sumOf counter totals.byCodebase.values + count measure := by
  apply Table.sumOf_update_of_add
  rw [h.add]
  cases totals.byCodebase.get? codebase with
  | none => rw [Option.getD_none, h.zero, Option.map_none, Option.getD_none]
  | some sums => rfl

theorem overall_eq (h : IsCounter counter count) (measures : List (String × ρ)) :
    counter (ofMeasures measures : Breakdown τ).overall
      = sumOf counter (ofMeasures measures : Breakdown τ).byCodebase.values := by
  unfold ofMeasures
  apply List.foldlRecOn (motive := fun totals : Breakdown τ =>
    counter totals.overall = sumOf counter totals.byCodebase.values)
  · exact h.zero
  · rintro totals heq ⟨codebase, measure⟩ -
    rw [h.sumOf_add, ← heq]
    exact h.add totals.overall measure

theorem eachOf (h : IsCounter counter count) (measures : List (String × ρ)) :
    (ofMeasures measures : Breakdown τ).EachOf Prod.fst
      (fun measures sums => counter sums = sumOf (fun found => count found.2) measures)
      measures := by
  have heach : (ofMeasures (measures.map fun found => (found.1, found.2)) : Breakdown τ).EachOf
      Prod.fst (fun measures sums => counter sums = sumOf (fun found => count found.2) measures)
      measures := by
    apply eachOf_ofMeasures h.zero
    intro files sums found hsums
    rw [h.add, hsums, sumOf_append]
    rfl
  rwa [List.map_id'] at heach

theorem overall_eq_sumOf (h : IsCounter counter count) (measures : List (String × ρ)) :
    counter (ofMeasures measures : Breakdown τ).overall
      = sumOf (fun found => count found.2) measures :=
  (h.eachOf measures).overall

theorem codebase_eq_sumOf (h : IsCounter counter count) (measures : List (String × ρ))
    (codebase : String) :
    (((ofMeasures measures : Breakdown τ).byCodebase.get? codebase).map counter).getD 0
      = sumOf (fun found => count found.2)
        (measures.filter fun found => found.1 == codebase) := by
  rw [← (h.eachOf measures).codebases codebase]
  cases (ofMeasures measures : Breakdown τ).byCodebase.get? codebase with
  | none => exact h.zero.symm
  | some sums => rfl

end IsCounter

/-! ## Marks -/

/-- Each file may give the sums a property, which they keep. -/
structure IsMark (mark : τ → Prop) (marked : ρ → Prop) : Prop where
  zero : ¬mark Totals.zero
  add : ∀ sums measure, mark (Totals.add sums measure) ↔ mark sums ∨ marked measure

namespace IsMark

variable {mark : τ → Prop} {marked : ρ → Prop}

theorem exists_add (h : IsMark mark marked) (totals : Breakdown τ) (codebase : String)
    (measure : ρ) :
    (∃ sums ∈ (totals.add codebase measure).byCodebase.values, mark sums)
      ↔ (∃ sums ∈ totals.byCodebase.values, mark sums) ∨ marked measure := by
  have hadded : mark (Totals.add ((totals.byCodebase.get? codebase).getD Totals.zero) measure)
      ↔ (∃ sums, totals.byCodebase.get? codebase = some sums ∧ mark sums) ∨ marked measure := by
    rw [h.add]
    cases totals.byCodebase.get? codebase with
    | none => simp [h.zero]
    | some sums => simp
  simp only [Table.mem_values_iff, Breakdown.add, Table.get?_update]
  constructor
  · rintro ⟨sums, ⟨name, hname⟩, hmark⟩
    by_cases hcodebase : name = codebase
    · rw [if_pos hcodebase] at hname
      cases hname
      rcases hadded.1 hmark with ⟨old, hold, hmark⟩ | hmarked
      · exact .inl ⟨old, ⟨codebase, hold⟩, hmark⟩
      · exact .inr hmarked
    · rw [if_neg hcodebase] at hname
      exact .inl ⟨sums, ⟨name, hname⟩, hmark⟩
  · rintro (⟨sums, ⟨name, hname⟩, hmark⟩ | hmarked)
    · by_cases hcodebase : name = codebase
      · subst hcodebase
        exact ⟨_, ⟨name, if_pos rfl⟩, hadded.2 (.inl ⟨sums, hname, hmark⟩)⟩
      · exact ⟨sums, ⟨name, (if_neg hcodebase).trans hname⟩, hmark⟩
    · exact ⟨_, ⟨codebase, if_pos rfl⟩, hadded.2 (.inr hmarked)⟩

theorem overall_iff (h : IsMark mark marked) (measures : List (String × ρ)) :
    mark (ofMeasures measures : Breakdown τ).overall
      ↔ ∃ sums ∈ (ofMeasures measures : Breakdown τ).byCodebase.values, mark sums := by
  unfold ofMeasures
  apply List.foldlRecOn (motive := fun totals : Breakdown τ =>
    mark totals.overall ↔ ∃ sums ∈ totals.byCodebase.values, mark sums)
  · constructor
    · exact fun hmark => absurd hmark h.zero
    · rintro ⟨sums, hsums, -⟩
      cases hsums
  · rintro totals hiff ⟨codebase, measure⟩ -
    rw [h.exists_add, ← hiff]
    exact h.add totals.overall measure

end IsMark

/-! ## Tables -/

/-- A table that is a counter at each key and a mark of each key adds up key by key. -/
theorem isSum_of_counters {table : τ → Table String Nat} {count : String → ρ → Nat}
    {has : String → ρ → Prop}
    (hcounts : ∀ key, IsCounter (fun sums => (table sums).getD key 0) (count key))
    (hkeys : ∀ key, IsMark (fun sums => key ∈ (table sums).keys) (has key))
    (measures : List (String × ρ)) :
    (table (ofMeasures measures : Breakdown τ).overall).IsSum
      ((ofMeasures measures : Breakdown τ).byCodebase.values.map table) where
  keys key := by
    rw [(hkeys key).overall_iff]
    simp only [List.mem_map, exists_exists_and_eq_and]
  counts key := by
    rw [(hcounts key).overall_eq, sumOf_map]

theorem isSum_of_addAll {table : τ → Table String Nat} {counted : ρ → Table String Nat}
    (hzero : table Totals.zero = .empty)
    (hadd : ∀ sums measure, table (Totals.add sums measure)
      = (table sums).addAll (counted measure))
    (measures : List (String × ρ)) :
    (table (ofMeasures measures : Breakdown τ).overall).IsSum
      ((ofMeasures measures : Breakdown τ).byCodebase.values.map table) := by
  have hcounts : ∀ key, IsCounter (fun sums => (table sums).getD key 0)
      fun measure => (counted measure).getD key 0 := by
    intro key
    refine ⟨?_, fun sums measure => ?_⟩
    · rw [hzero]
      rfl
    · rw [hadd, Table.getD_addAll]
  have hkeys : ∀ key, IsMark (fun sums => key ∈ (table sums).keys)
      fun measure => key ∈ (counted measure).keys := by
    intro key
    refine ⟨?_, fun sums measure => ?_⟩
    · rw [hzero]
      exact List.not_mem_nil
    · rw [hadd, Table.mem_keys_addAll]
  exact isSum_of_counters hcounts hkeys measures

theorem isSum_of_exists {counters : List (τ → Nat)} {tables : List (τ → Table String Nat)}
    (hcounters : ∀ counter ∈ counters, ∃ count : ρ → Nat, IsCounter counter count)
    (htables : ∀ table ∈ tables, table Totals.zero = .empty ∧
      ∃ counted : ρ → Table String Nat, ∀ sums measure,
        table (Totals.add sums measure) = (table sums).addAll (counted measure))
    (measures : List (String × ρ)) : IsSum counters tables (ofMeasures measures) where
  counters counter h := by
    obtain ⟨count, hcount⟩ := hcounters counter h
    exact hcount.overall_eq measures
  tables table h := by
    obtain ⟨hzero, counted, hadd⟩ := htables table h
    exact isSum_of_addAll hzero hadd measures

/-! ## Line ownership and prop surface -/

namespace LineTotals

def counters : List (LineTotals → Nat) :=
  [files, markupFiles, trackedFiles, lines, markupLines, tracked, imports, tags, tagCount]

def tables : List (LineTotals → Table String Nat) := [byComponent]

theorem isCounter_tagCount : IsCounter tagCount FileLines.tagCount := ⟨rfl, fun _ _ => rfl⟩

theorem exists_isCounter : ∀ counter ∈ counters, ∃ count : FileLines → Nat,
    IsCounter counter count := by
  simp only [counters, List.forall_mem_cons]
  have hfiles : IsCounter files fun _ : FileLines => 1 := ⟨rfl, fun _ _ => rfl⟩
  have hmarkupFiles : IsCounter markupFiles fun file : FileLines =>
      if file.rendersMarkup then 1 else 0 := ⟨rfl, fun _ _ => rfl⟩
  have htrackedFiles : IsCounter trackedFiles fun file : FileLines =>
      if 0 < file.tracked then 1 else 0 := ⟨rfl, fun _ _ => rfl⟩
  have hlines : IsCounter lines FileLines.total := ⟨rfl, fun _ _ => rfl⟩
  have hmarkupLines : IsCounter markupLines fun file : FileLines =>
      if file.rendersMarkup then file.total else 0 := ⟨rfl, fun _ _ => rfl⟩
  have htracked : IsCounter tracked FileLines.tracked := ⟨rfl, fun _ _ => rfl⟩
  have himports : IsCounter imports FileLines.imports := ⟨rfl, fun _ _ => rfl⟩
  have htags : IsCounter tags FileLines.tags := ⟨rfl, fun _ _ => rfl⟩
  exact ⟨⟨_, hfiles⟩, ⟨_, hmarkupFiles⟩, ⟨_, htrackedFiles⟩, ⟨_, hlines⟩, ⟨_, hmarkupLines⟩,
    ⟨_, htracked⟩, ⟨_, himports⟩, ⟨_, htags⟩, ⟨_, isCounter_tagCount⟩, by simp⟩

theorem exists_addAll : ∀ table ∈ tables, table Totals.zero = .empty ∧
    ∃ counted : FileLines → Table String Nat, ∀ sums measure,
      table (Totals.add sums measure) = (table sums).addAll (counted measure) := by
  simp only [tables, List.forall_mem_singleton]
  exact ⟨rfl, FileLines.byComponent, fun _ _ => rfl⟩

theorem isSum (measures : List (String × FileLines)) :
    IsSum counters tables (ofMeasures measures) :=
  isSum_of_exists exists_isCounter exists_addAll measures

end LineTotals

namespace SurfaceTotals

def counters : List (SurfaceTotals → Nat) :=
  [files, markupFiles, trackedFiles, chars, markupChars, props, tagCount]

def tables : List (SurfaceTotals → Table String Nat) := [byComponent]

theorem isCounter_tagCount : IsCounter tagCount FileSurface.tagCount := ⟨rfl, fun _ _ => rfl⟩

theorem exists_isCounter : ∀ counter ∈ counters, ∃ count : FileSurface → Nat,
    IsCounter counter count := by
  simp only [counters, List.forall_mem_cons]
  have hfiles : IsCounter files fun _ : FileSurface => 1 := ⟨rfl, fun _ _ => rfl⟩
  have hmarkupFiles : IsCounter markupFiles fun file : FileSurface =>
      if file.rendersMarkup then 1 else 0 := ⟨rfl, fun _ _ => rfl⟩
  have htrackedFiles : IsCounter trackedFiles fun file : FileSurface =>
      if 0 < file.tagCount then 1 else 0 := ⟨rfl, fun _ _ => rfl⟩
  have hchars : IsCounter chars FileSurface.total := ⟨rfl, fun _ _ => rfl⟩
  have hmarkupChars : IsCounter markupChars fun file : FileSurface =>
      if file.rendersMarkup then file.total else 0 := ⟨rfl, fun _ _ => rfl⟩
  have hprops : IsCounter props FileSurface.props := ⟨rfl, fun _ _ => rfl⟩
  exact ⟨⟨_, hfiles⟩, ⟨_, hmarkupFiles⟩, ⟨_, htrackedFiles⟩, ⟨_, hchars⟩, ⟨_, hmarkupChars⟩,
    ⟨_, hprops⟩, ⟨_, isCounter_tagCount⟩, by simp⟩

theorem exists_addAll : ∀ table ∈ tables, table Totals.zero = .empty ∧
    ∃ counted : FileSurface → Table String Nat, ∀ sums measure,
      table (Totals.add sums measure) = (table sums).addAll (counted measure) := by
  simp only [tables, List.forall_mem_singleton]
  exact ⟨rfl, FileSurface.byComponent, fun _ _ => rfl⟩

theorem isSum (measures : List (String × FileSurface)) :
    IsSum counters tables (ofMeasures measures) :=
  isSum_of_exists exists_isCounter exists_addAll measures

end SurfaceTotals

end Census

end UsageCensus
