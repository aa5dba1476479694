import Mathlib.Data.List.Induction
import Mathlib.Data.List.Nodup
import MailTemplate.Css.Declaration
/-!
# What merging leaves

Declarations that are merged in order give each property once, where it was set first, with the value that it was given
last (`isMergeOf_mergeAll`). So the declarations that are merged last all survive (`IsMergeOf.survive`).
-/
namespace MailTemplate.Css.Declaration

variable {list ds es merged : List Declaration} {d : Declaration} {p : Text}

/-- The value that declarations give to a property last. -/
def lastValue? (ds : List Declaration) (property : Text) : Option Text := value? ds.reverse property

/-- Declarations that set each property of `ds` once, in the order in which `ds` sets them first, to the last value that
`ds` gives it. -/
structure IsMergeOf (ds merged : List Declaration) : Prop where
  properties : merged.map property = (ds.map property).eraseDups
  values : ∀ d ∈ merged, lastValue? ds d.property = some d.value

/-! ## Properties -/

theorem map_property_merge (list : List Declaration) (d : Declaration) :
    (merge list d).map property =
      if d.property ∈ list.map property then list.map property else list.map property ++ [d.property] := by
  induction list with
  | nil => rfl
  | cons e list ih =>
    rw [merge]
    by_cases he : e.property = d.property
    · simp [he]
    · by_cases hd : d.property ∈ list.map property
      · rw [if_pos hd] at ih
        simp only [if_neg he, List.map_cons, ih]
        rw [if_pos (List.mem_cons_of_mem _ hd)]
      · rw [if_neg hd] at ih
        simp only [if_neg he, List.map_cons, ih]
        rw [if_neg, List.cons_append]
        intro hmem
        rcases List.mem_cons.1 hmem with hp | hp
        · exact he hp.symm
        · exact hd hp

theorem eraseDups_concat (l : List Text) (a : Text) :
    (l ++ [a]).eraseDups = if a ∈ l then l.eraseDups else l.eraseDups ++ [a] := by
  rw [List.eraseDups_append]
  split
  · next ha => simp [List.removeAll, ha]
  · next ha => simp [List.removeAll, ha, List.eraseDups_cons]

theorem mergeAll_concat (list ds : List Declaration) (d : Declaration) :
    mergeAll list (ds ++ [d]) = merge (mergeAll list ds) d := by
  rw [mergeAll, List.foldl_append]
  rfl

theorem map_property_mergeAll (ds : List Declaration) :
    (mergeAll [] ds).map property = (ds.map property).eraseDups := by
  induction ds using List.reverseRecOn with
  | nil => rfl
  | append_singleton ds d ih =>
    rw [mergeAll_concat, map_property_merge, ih, List.map_append, List.map_singleton, eraseDups_concat]
    simp only [List.mem_eraseDups]

theorem nodup_map_property_merge (h : (list.map property).Nodup) (d : Declaration) :
    ((merge list d).map property).Nodup := by
  rw [map_property_merge]
  split
  · exact h
  · next hd =>
    rw [← List.concat_eq_append]
    exact h.concat hd

theorem nodup_map_property_mergeAll (ds : List Declaration) : ((mergeAll [] ds).map property).Nodup := by
  induction ds using List.reverseRecOn with
  | nil => exact .nil
  | append_singleton ds d ih =>
    rw [mergeAll_concat]
    exact nodup_map_property_merge ih d

/-! ## Values -/

theorem value?_append (ds es : List Declaration) (p : Text) :
    value? (ds ++ es) p = (value? ds p).or (value? es p) := by
  rw [value?, value?, value?, List.find?_append, Option.map_or]

theorem value?_eq_none_iff : value? ds p = none ↔ p ∉ ds.map property := by
  simp [value?]

theorem value?_mergeAll (ds : List Declaration) (p : Text) : value? (mergeAll [] ds) p = lastValue? ds p := by
  induction ds using List.reverseRecOn with
  | nil => rfl
  | append_singleton ds d ih =>
    rw [mergeAll_concat, value?_merge, ih, lastValue?, lastValue?, List.reverse_concat, ← List.singleton_append,
      value?_append]
    by_cases hp : p = d.property
    · simp [value?, hp]
    · simp [value?, hp, Ne.symm hp]

/-- Where each property stands once, every declaration gives its property the value. -/
theorem value?_of_mem (h : (list.map property).Nodup) (hd : d ∈ list) : value? list d.property = some d.value := by
  induction list with
  | nil => cases hd
  | cons e list ih =>
    rw [List.map_cons, List.nodup_cons] at h
    rcases List.mem_cons.1 hd with rfl | hd
    · simp [value?]
    · have hne : e.property ≠ d.property := fun he => h.1 (he ▸ List.mem_map_of_mem hd)
      have hrest := ih h.2 hd
      rw [value?] at hrest ⊢
      rwa [List.find?_cons_of_neg (by simpa using hne)]

theorem isMergeOf_mergeAll (ds : List Declaration) : IsMergeOf ds (mergeAll [] ds) where
  properties := map_property_mergeAll ds
  values d hd := by rw [← value?_mergeAll, value?_of_mem (nodup_map_property_mergeAll ds) hd]

/-! ## Later declarations -/

theorem lastValue?_append (ds es : List Declaration) (p : Text) :
    lastValue? (ds ++ es) p = (lastValue? es p).or (lastValue? ds p) := by
  rw [lastValue?, List.reverse_append, value?_append]
  rfl

theorem lastValue?_eq_none_iff : lastValue? ds p = none ↔ p ∉ ds.map property := by
  rw [lastValue?, value?_eq_none_iff, List.map_reverse, List.mem_reverse]

theorem exists_lastValue? (hp : p ∈ ds.map property) : ∃ value, lastValue? ds p = some value := by
  apply Option.ne_none_iff_exists'.1
  intro hnone
  exact lastValue?_eq_none_iff.1 hnone hp

theorem lastValue?_append_of_mem (hp : p ∈ es.map property) : lastValue? (ds ++ es) p = lastValue? es p := by
  obtain ⟨value, hvalue⟩ := exists_lastValue? hp
  rw [lastValue?_append, hvalue]
  rfl

theorem mem_of_lastValue? {value : Text} (h : lastValue? ds p = some value) : ⟨p, value⟩ ∈ ds := by
  obtain ⟨d, hd, rfl⟩ := Option.map_eq_some_iff.1 h
  have hp : d.property = p := by simpa using List.find?_some hd
  have hmem := List.mem_reverse.1 (List.mem_of_find?_eq_some hd)
  rwa [← hp]

namespace IsMergeOf

theorem subset (h : IsMergeOf ds merged) : merged ⊆ ds := fun d hd => mem_of_lastValue? (h.values d hd)

/-- Merging keeps the last value of every property. -/
theorem lastValue?_eq (h : IsMergeOf ds merged) (p : Text) : lastValue? merged p = lastValue? ds p := by
  cases hm : lastValue? merged p with
  | none =>
    rw [lastValue?_eq_none_iff, h.properties, List.mem_eraseDups, ← lastValue?_eq_none_iff] at hm
    exact hm.symm
  | some value => exact (h.values _ (mem_of_lastValue? hm)).symm

end IsMergeOf

/-- Whether each property of `ds` has among `es` the value that `ds` gives it last. -/
def Survive (ds es : List Declaration) : Prop :=
  ∀ d ∈ ds, ∃ value, lastValue? ds d.property = some value ∧ lastValue? es d.property = some value

theorem survive_self (ds : List Declaration) : Survive ds ds := by
  intro d hd
  obtain ⟨value, hvalue⟩ := exists_lastValue? (List.mem_map_of_mem hd)
  exact ⟨value, hvalue, hvalue⟩

/-- What is merged last survives. -/
theorem IsMergeOf.survive (h : IsMergeOf (ds ++ es) merged) : Survive es merged := by
  intro d hd
  have hp : d.property ∈ es.map property := List.mem_map_of_mem hd
  obtain ⟨value, hvalue⟩ := exists_lastValue? hp
  refine ⟨value, hvalue, ?_⟩
  rw [h.lastValue?_eq, lastValue?_append_of_mem hp, hvalue]

end MailTemplate.Css.Declaration
