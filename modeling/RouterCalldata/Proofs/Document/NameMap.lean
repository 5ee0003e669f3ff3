import Mathlib.Data.List.Perm.Basic
import Mathlib.Data.List.Nodup
import Mathlib.Data.String.Basic
import RouterCalldata.Document.NameMap

/-!
# Maps and their listings

A map holds its entries in the order in which they were inserted, but this order is none of its
contents: what it holds is which text is found under which name.  The same contents may be listed in
any order, and two listings of them are rearrangements of each other.  Only one listing has its
names in increasing order.

## Main definitions

* `NameMap.IsListing`: a list of entries that holds what is found under each name.

## Main results

* `NameMap.ofList_entries`: a map is the map of its entries;
* `NameMap.isListing_sorted`, `NameMap.pairwise_sorted`: the sorted entries are a listing in
  increasing order;
* `NameMap.IsListing.eq_of_pairwise`: the only one.
-/

namespace RouterCalldata.NameMap

variable {m : NameMap} {es es' : List (String × String)} {name text : String}

/-! ## Insertion -/

theorem ext_entries {m m' : NameMap} (h : m.entries = m'.entries) : m = m' := by
  cases m
  cases m'
  cases h
  rfl

/-- An entry of a new name is added at the end. -/
theorem put_of_not_mem (h : name ∉ es.map (·.1)) : put name text es = es ++ [(name, text)] := by
  induction es with
  | nil => rfl
  | cons e rest ih =>
    rw [List.map_cons, List.mem_cons, not_or] at h
    rw [put, if_neg (Ne.symm h.1), ih h.2, List.cons_append]

/-- Entries of new and different names are added one behind the other. -/
theorem entries_foldl_insert (h : ((m.entries ++ es).map (·.1)).Nodup) :
    (es.foldl (fun m e => m.insert e.1 e.2) m).entries = m.entries ++ es := by
  induction es generalizing m with
  | nil => simp
  | cons e rest ih =>
    have hnew : e.1 ∉ m.entries.map (·.1) := by
      intro hmem
      rw [List.map_append, List.map_cons] at h
      exact List.disjoint_of_nodup_append h hmem List.mem_cons_self
    have hinsert : (m.insert e.1 e.2).entries = m.entries ++ [e] := put_of_not_mem hnew
    have hrest : (((m.insert e.1 e.2).entries ++ rest).map (·.1)).Nodup := by
      rw [hinsert]
      simpa using h
    rw [List.foldl_cons, ih hrest, hinsert, List.append_assoc, List.singleton_append]

/-- Entries of different names are held in the order in which they are inserted. -/
theorem entries_ofList (h : (es.map (·.1)).Nodup) : (ofList es).entries = es :=
  entries_foldl_insert h

/-- **A map is the map of its entries.** -/
theorem ofList_entries (m : NameMap) : ofList m.entries = m :=
  ext_entries (entries_ofList m.nodup)

/-! ## Look-up -/

/-- Where no key repeats, the entries are what is found. -/
theorem lookup_eq_some_iff_mem (h : (es.map (·.1)).Nodup) :
    es.lookup name = some text ↔ (name, text) ∈ es := by
  induction es with
  | nil => simp
  | cons e rest ih =>
    obtain ⟨name', text'⟩ := e
    rw [List.map_cons, List.nodup_cons] at h
    rw [List.lookup_cons, List.mem_cons, Prod.mk.injEq]
    by_cases hname : name = name'
    · subst hname
      have hrest : (name, text) ∉ rest := fun hmem => h.1 (List.mem_map_of_mem (f := (·.1)) hmem)
      simp [hrest, eq_comm]
    · rw [beq_false_of_ne hname]
      simp [hname, ih h.2]

theorem get?_eq_some_iff : m.get? name = some text ↔ (name, text) ∈ m.entries :=
  lookup_eq_some_iff_mem m.nodup

/-! ## Listings -/

/-- The entries hold each name that has a text, with the text that `texts` gives it, and no name
repeats. -/
structure IsListing (texts : String → Option String) (es : List (String × String)) : Prop where
  nodup : (es.map (·.1)).Nodup
  mem_iff : ∀ name text, (name, text) ∈ es ↔ texts name = some text

variable {texts : String → Option String}

theorem isListing_entries (m : NameMap) : IsListing m.get? m.entries where
  nodup := m.nodup
  mem_iff _ _ := get?_eq_some_iff.symm

theorem IsListing.get?_eq (h : IsListing texts m.entries) : m.get? = texts := by
  funext name
  apply Option.ext
  intro text
  rw [← h.mem_iff, get?_eq_some_iff]

/-- Listed in another order the contents are the same. -/
theorem IsListing.of_perm (h : IsListing texts es) (hperm : es'.Perm es) : IsListing texts es' where
  nodup := (hperm.map (·.1)).nodup_iff.mpr h.nodup
  mem_iff name text := hperm.mem_iff.trans (h.mem_iff name text)

theorem isListing_sorted (m : NameMap) : IsListing m.get? m.sorted :=
  m.isListing_entries.of_perm (List.mergeSort_perm _ _)

theorem mem_sorted_iff : (name, text) ∈ m.sorted ↔ m.get? name = some text :=
  m.isListing_sorted.mem_iff name text

/-- **The names of the sorted entries increase.** -/
theorem pairwise_sorted (m : NameMap) : m.sorted.Pairwise fun e e' => e.1 < e'.1 := by
  have hle : m.sorted.Pairwise fun e e' => decide (e.1 ≤ e'.1) = true := by
    apply List.pairwise_mergeSort
    · intro a b c hab hbc
      exact decide_eq_true ((of_decide_eq_true hab).trans (of_decide_eq_true hbc))
    · intro a b
      simpa using le_total a.1 b.1
  have hne : m.sorted.Pairwise fun e e' => e.1 ≠ e'.1 :=
    List.pairwise_map.mp m.isListing_sorted.nodup
  apply hle.imp₂ _ hne
  intro a b hab hne
  exact lt_of_le_of_ne (of_decide_eq_true hab) hne

/-- **Only one listing has its names in increasing order.** -/
theorem IsListing.eq_of_pairwise (h : IsListing texts es) (h' : IsListing texts es')
    (hlt : es.Pairwise fun e e' => e.1 < e'.1) (hlt' : es'.Pairwise fun e e' => e.1 < e'.1) :
    es = es' := by
  have hperm : es.Perm es' := by
    apply (List.perm_ext_iff_of_nodup h.nodup.of_map h'.nodup.of_map).mpr
    rintro ⟨name, text⟩
    rw [h.mem_iff, h'.mem_iff]
  apply hperm.eq_of_pairwise _ hlt hlt'
  intro a b _ _ hab hba
  exact absurd hab hba.asymm

end RouterCalldata.NameMap
