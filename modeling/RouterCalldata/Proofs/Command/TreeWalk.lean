import Mathlib.Data.List.Nodup
import Mathlib.Data.List.TakeWhile
import RouterCalldata.Command.Fixture

/-!
# What a walk lists, and under which names

A walk puts a slash between a path and the name of an entry, unless the path ends with one.  So the
position of an entry tells its name only if no name holds a slash and none is empty, as is so in a
file system; and only then do the positions below two entries differ whenever the names of the
entries do.  With such names, distinct in each directory, each position is listed once.

The name at the end of a path is its last component, but for empty ones and single dots.  What it
ends in is looked for from behind: an extension is what follows the last dot, and a name that starts
with its only dot has none.

## Main definitions

* `FileTree.IsAt`: what is found at a path at or below another one;
* `Path.IsName`, `FileTree.HasNames`: names that an entry can have, throughout a tree.

## Main results

* `Path.fileName?_eq_some_iff`, `Path.extension?_eq_some_iff`: the name of a path, and its ending;
* `Command.isFixture_iff`, `Command.isFixture_join_iff`: which paths, and which entries, have the
  name of a fixture;
* `FileTree.mem_walk_iff`: a walk finds all that is there;
* `FileTree.nodup_walk`: it lists each position once.
-/

namespace RouterCalldata

/-! ## Names -/

namespace Path

/-- **The ending of a name** is what follows its last dot, which is not its first character. -/
theorem extension?_eq_some_iff {name ext : String} :
    extension? name = some ext ↔
      '.' ∉ ext.toList ∧ ∃ stem, stem ≠ "" ∧ name = stem ++ "." ++ ext := by
  unfold extension?
  constructor
  · intro h
    have hsplit := List.takeWhile_append_dropWhile (p := (· != '.')) (l := name.toList.reverse)
    have hhead := List.head_dropWhile_not (· != '.') (l := name.toList.reverse)
    rcases hdrop : name.toList.reverse.dropWhile (· != '.') with _ | ⟨c, _ | ⟨d, stem⟩⟩
    · simp [hdrop] at h
    · simp [hdrop] at h
    · simp only [hdrop, Option.some.injEq] at h hsplit hhead
      obtain rfl : c = '.' := by simpa using hhead
      subst h
      refine ⟨?_, String.ofList (d :: stem).reverse, ?_, ?_⟩
      · rw [String.toList_ofList, List.mem_reverse]
        intro hdot
        exact absurd (List.mem_takeWhile_imp hdot) (by decide)
      · rw [Ne, String.ofList_eq_empty_iff]
        simp
      · rw [← String.toList_inj]
        simpa using (congrArg List.reverse hsplit).symm
  · rintro ⟨hext, stem, hstem, rfl⟩
    have hreverse : (stem ++ "." ++ ext).toList.reverse =
        ext.toList.reverse ++ '.' :: stem.toList.reverse := by
      simp
    have hletters : ∀ c ∈ ext.toList.reverse, (c != '.') = true := fun c hc =>
      bne_iff_ne.mpr (ne_of_mem_of_not_mem (List.mem_reverse.mp hc) hext)
    have hne : stem.toList.reverse ≠ [] := by
      rw [Ne, List.reverse_eq_nil_iff, String.toList_eq_nil_iff]
      exact hstem
    obtain ⟨d, rest, hrest⟩ := List.exists_cons_of_ne_nil hne
    rw [hreverse, List.takeWhile_append_of_pos hletters, List.dropWhile_append_of_pos hletters,
      hrest]
    simp

/-- **The name at the end of a path** is its last component, but for empty ones and single dots. -/
theorem fileName?_eq_some_iff {path name : String} :
    fileName? path = some name ↔ (name ≠ "" ∧ name ≠ "." ∧ name ≠ "..") ∧
      ∃ before after, components path = before ++ name :: after ∧
        ∀ c ∈ after, c = "" ∨ c = "." := by
  have hlast : ((components path).filter fun c => c != "" && c != ".").getLast? = some name ↔
      (name ≠ "" ∧ name ≠ ".") ∧ ∃ before after, components path = before ++ name :: after ∧
        ∀ c ∈ after, c = "" ∨ c = "." := by
    rw [List.getLast?_eq_head?_reverse, ← List.filter_reverse, List.head?_filter,
      List.find?_eq_some_iff_append]
    simp only [Bool.and_eq_true, bne_iff_ne, Bool.not_eq_true', Bool.and_eq_false_iff,
      bne_eq_false_iff_eq]
    refine and_congr_right fun _ => ⟨?_, ?_⟩
    · rintro ⟨after, before, hsplit, hafter⟩
      refine ⟨before.reverse, after.reverse, ?_, fun c hc => hafter c (List.mem_reverse.mp hc)⟩
      simpa using congrArg List.reverse hsplit
    · rintro ⟨before, after, hsplit, hafter⟩
      refine ⟨after.reverse, before.reverse, ?_, fun c hc => hafter c (List.mem_reverse.mp hc)⟩
      simpa using congrArg List.reverse hsplit
  unfold fileName?
  split
  · next hdots =>
    constructor
    · exact nofun
    · rintro ⟨⟨hempty, hdot, hne⟩, hsplit⟩
      have hname := hlast.mpr ⟨⟨hempty, hdot⟩, hsplit⟩
      exact absurd (Option.some.inj (hname.symm.trans hdots)) hne
  · next hdots =>
    constructor
    · intro hname
      obtain ⟨⟨hempty, hdot⟩, hsplit⟩ := hlast.mp hname
      refine ⟨⟨hempty, hdot, ?_⟩, hsplit⟩
      rintro rfl
      exact hdots hname
    · rintro ⟨⟨hempty, hdot, -⟩, hsplit⟩
      exact hlast.mpr ⟨⟨hempty, hdot⟩, hsplit⟩

/-- A name that an entry of a directory can have. -/
structure IsName (name : String) : Prop where
  ne_empty : name ≠ ""
  ne_dot : name ≠ "."
  ne_dots : name ≠ ".."
  slash_notMem : '/' ∉ name.toList

theorem endsWith_slash_iff {path : String} :
    path.endsWith "/" = true ↔ ['/'] <:+ path.toList := by
  rw [String.endsWith_eq_endsWith_toSlice, String.Slice.endsWith_string_iff, String.copy_toSlice]
  rfl

/-- The name of an entry follows what is in front of the slash, which the path holds. -/
theorem exists_toList_join (path : String) :
    ∃ front, path.toList <+: front ++ ['/'] ∧
      ∀ name, (join path name).toList = front ++ '/' :: name.toList := by
  by_cases h : path.endsWith "/" = true
  · obtain ⟨front, hfront⟩ := endsWith_slash_iff.mp h
    refine ⟨front, hfront ▸ List.prefix_rfl, fun name => ?_⟩
    rw [join, if_pos h, String.toList_append, ← hfront]
    simp
  · refine ⟨path.toList, List.prefix_append _ _, fun name => ?_⟩
    rw [join, if_neg h]
    simp

theorem prefix_join (path name : String) : path.toList <+: (join path name).toList := by
  obtain ⟨front, hprefix, hjoin⟩ := exists_toList_join path
  have hslash : front ++ ['/'] <+: (join path name).toList := by
    rw [hjoin]
    exact ⟨name.toList, by simp⟩
  exact hprefix.trans hslash

theorem length_lt_length_join {name : String} (h : name ≠ "") (path : String) :
    path.toList.length < (join path name).toList.length := by
  obtain ⟨front, hprefix, hjoin⟩ := exists_toList_join path
  have hfront : path.toList.length ≤ front.length + 1 := by
    simpa using hprefix.length_le
  have hname : 0 < name.toList.length := by
    rw [List.length_pos_iff, Ne, String.toList_eq_nil_iff]
    exact h
  rw [hjoin, List.length_append, List.length_cons]
  omega

/-- The position of an entry does not end with a slash. -/
theorem endsWith_join {name : String} (h : IsName name) (path : String) :
    (join path name).endsWith "/" = false := by
  rw [Bool.eq_false_iff, Ne, endsWith_slash_iff]
  rintro ⟨rest, hrest⟩
  obtain ⟨front, -, hjoin⟩ := exists_toList_join path
  have hne : name.toList ≠ [] := by
    rw [Ne, String.toList_eq_nil_iff]
    exact h.ne_empty
  obtain ⟨init, last, hname⟩ := (List.eq_nil_or_concat name.toList).resolve_left hne
  rw [List.concat_eq_append] at hname
  rw [hjoin, hname, ← List.cons_append, ← List.append_assoc] at hrest
  obtain ⟨-, hlast⟩ := List.append_inj' hrest rfl
  obtain rfl : '/' = last := by simpa using hlast
  exact h.slash_notMem (by simp [hname])

theorem components_join {name : String} (h : '/' ∉ name.toList) (path : String) :
    ∃ before, components (join path name) = before ++ [name] := by
  obtain ⟨front, -, hjoin⟩ := exists_toList_join path
  refine ⟨(front.splitOn '/').map String.ofList, ?_⟩
  rw [components, hjoin, List.splitOn_append_cons_self, List.splitOn_eq_singleton h]
  simp

end Path

namespace Command

/-- **The name of a fixture** ends in `.json`, behind a stem that is not empty. -/
theorem isFixture_iff {path : String} :
    isFixture path = true ↔ ∃ before stem after,
      Path.components path = before ++ (stem ++ ".json") :: after ∧ stem ≠ "" ∧
        ∀ c ∈ after, c = "" ∨ c = "." := by
  have hext {name : String} : Path.extension? name = some "json" ↔
      ∃ stem, stem ≠ "" ∧ name = stem ++ ".json" := by
    rw [Path.extension?_eq_some_iff, and_iff_right (by decide)]
    simp only [String.append_assoc]
    rfl
  unfold isFixture
  rw [beq_iff_eq, Option.bind_eq_some_iff]
  simp only [hext, Path.fileName?_eq_some_iff]
  constructor
  · rintro ⟨name, ⟨-, before, after, hsplit, hafter⟩, stem, hstem, rfl⟩
    exact ⟨before, stem, after, hsplit, hstem, hafter⟩
  · rintro ⟨before, stem, after, hsplit, hstem, hafter⟩
    refine ⟨stem ++ ".json", ⟨?_, before, after, hsplit, hafter⟩, stem, hstem, rfl⟩
    have hlong : 5 ≤ (stem ++ ".json").toList.length := by
      rw [String.toList_append, List.length_append]
      exact Nat.le_add_left 5 _
    refine ⟨?_, ?_, ?_⟩
    all_goals
      intro hshort
      rw [hshort] at hlong
      exact absurd hlong (by decide)

/-- An entry is one of a fixture by its own name. -/
theorem isFixture_join_iff {name : String} (h : Path.IsName name) (path : String) :
    isFixture (Path.join path name) = true ↔ ∃ stem, stem ≠ "" ∧ name = stem ++ ".json" := by
  obtain ⟨front, hfront⟩ := Path.components_join h.slash_notMem path
  rw [isFixture_iff, hfront]
  constructor
  · rintro ⟨before, stem, after, hsplit, hstem, hafter⟩
    rcases List.eq_nil_or_concat after with rfl | ⟨init, last, rfl⟩
    · exact ⟨stem, hstem, by simpa using (List.append_inj' hsplit rfl).2⟩
    · rw [List.concat_eq_append] at hsplit hafter
      rw [← List.cons_append, ← List.append_assoc] at hsplit
      obtain rfl : name = last := by simpa using (List.append_inj' hsplit rfl).2
      rcases hafter name (by simp) with hname | hname
      · exact absurd hname h.ne_empty
      · exact absurd hname h.ne_dot
  · rintro ⟨stem, hstem, rfl⟩
    exact ⟨front, stem, [], rfl, hstem, by simp⟩

end Command

/-! ## Walks -/

namespace FileTree

theorem sizeOf_lt_of_mem {entries : List (String × FileTree)} {e : String × FileTree}
    (he : e ∈ entries) : sizeOf e.2 < sizeOf (directory entries) := by
  have hentry := List.sizeOf_lt_of_mem he
  have htree : sizeOf e = 1 + sizeOf e.1 + sizeOf e.2 := by
    cases e
    rfl
  rw [directory.sizeOf_spec]
  omega

/-- Induction over trees: a directory may use what holds of its entries. -/
@[elab_as_elim]
theorem induction {motive : FileTree → Prop} (file : ∀ content, motive (file content))
    (directory : ∀ entries, (∀ e ∈ entries, motive e.2) → motive (directory entries)) :
    ∀ t, motive t
  | .file content => file content
  | .directory entries => directory entries fun e _ => induction file directory e.2
termination_by t => t
decreasing_by exact sizeOf_lt_of_mem ‹e ∈ entries›

/-- The tree is what is found at `position`, if another one is found at a path: it is that
one, or is found at or below one of its entries. -/
inductive IsAt (tree : FileTree) (position : String) : String → FileTree → Prop
  | here : IsAt tree position position tree
  | entry {path : String} {entries : List (String × FileTree)} {e : String × FileTree}
      (he : e ∈ entries) (h : IsAt tree position (Path.join path e.1) e.2) :
      IsAt tree position path (directory entries)

/-- All entries have names, and those of a directory have different ones. -/
inductive HasNames : FileTree → Prop
  | file (content : Bytes) : HasNames (file content)
  | directory {entries : List (String × FileTree)} (names : ∀ e ∈ entries, Path.IsName e.1)
      (nodup : (entries.map Prod.fst).Nodup) (below : ∀ e ∈ entries, HasNames e.2) :
      HasNames (directory entries)

theorem walkEntries_eq (path : String) (entries : List (String × FileTree)) :
    walkEntries path entries = entries.map fun e => (e.1, e.2.walk (Path.join path e.1)) := by
  induction entries with
  | nil => rfl
  | cons e rest ih =>
    obtain ⟨name, t⟩ := e
    rw [walkEntries, ih, List.map_cons]

/-- **A walk finds all that is there**, and nothing else. -/
theorem mem_walk_iff {t tree : FileTree} {path position : String} :
    (position, tree) ∈ t.walk path ↔ tree.IsAt position path t := by
  induction t using FileTree.induction generalizing path with
  | file content =>
    rw [walk, List.mem_singleton, Prod.mk.injEq]
    constructor
    · rintro ⟨rfl, rfl⟩
      exact .here
    · intro h
      cases h
      exact ⟨rfl, rfl⟩
  | directory entries ih =>
    rw [walk, walkEntries_eq, List.mem_cons, Prod.mk.injEq, List.mem_flatMap]
    simp only [List.mem_mergeSort, List.mem_map]
    constructor
    · rintro (⟨rfl, rfl⟩ | ⟨found, ⟨e, he, rfl⟩, hmem⟩)
      · exact .here
      · exact .entry he ((ih e he).mp hmem)
    · intro h
      cases h with
      | here => exact Or.inl ⟨rfl, rfl⟩
      | @entry path entries e he h => exact Or.inr ⟨_, ⟨e, he, rfl⟩, (ih e he).mpr h⟩

theorem IsAt.prefix {t tree : FileTree} {path position : String} (h : tree.IsAt position path t) :
    path.toList <+: position.toList := by
  induction h with
  | here => exact List.prefix_rfl
  | entry _ _ ih => exact (Path.prefix_join _ _).trans ih

/-- What follows a path that does not end with a slash starts with one. -/
theorem IsAt.exists_rest {t tree : FileTree} {path position : String}
    (h : tree.IsAt position path t) (hslash : path.endsWith "/" = false) :
    ∃ rest, position.toList = path.toList ++ rest ∧ rest.takeWhile (· != '/') = [] := by
  cases h with
  | here => exact ⟨[], by simp, rfl⟩
  | @entry _ entries e he h =>
    obtain ⟨rest, hrest⟩ := h.prefix
    refine ⟨'/' :: (e.1.toList ++ rest), ?_, rfl⟩
    rw [← hrest, Path.join, if_neg (by simp [hslash])]
    simp

/-- No position is below two entries with different names. -/
theorem IsAt.name_eq {t₁ t₂ tree₁ tree₂ : FileTree} {path name₁ name₂ position : String}
    (hname₁ : Path.IsName name₁) (hname₂ : Path.IsName name₂)
    (h₁ : tree₁.IsAt position (Path.join path name₁) t₁)
    (h₂ : tree₂.IsAt position (Path.join path name₂) t₂) : name₁ = name₂ := by
  obtain ⟨front, -, hjoin⟩ := Path.exists_toList_join path
  obtain ⟨rest₁, hposition₁, hrest₁⟩ := h₁.exists_rest (Path.endsWith_join hname₁ path)
  obtain ⟨rest₂, hposition₂, hrest₂⟩ := h₂.exists_rest (Path.endsWith_join hname₂ path)
  have hletters {name : String} (h : Path.IsName name) : ∀ c ∈ name.toList, (c != '/') = true :=
    fun c hc => bne_iff_ne.mpr (ne_of_mem_of_not_mem hc h.slash_notMem)
  have hbehind : name₁.toList ++ rest₁ = name₂.toList ++ rest₂ := by
    rw [hposition₁, hjoin, hjoin] at hposition₂
    simpa using hposition₂
  have hfirst := congrArg (List.takeWhile (· != '/')) hbehind
  rw [List.takeWhile_append_of_pos (hletters hname₁), hrest₁,
    List.takeWhile_append_of_pos (hletters hname₂), hrest₂] at hfirst
  rw [← String.toList_inj]
  simpa using hfirst

theorem walk_directory_perm (path : String) (entries : List (String × FileTree)) :
    ((directory entries).walk path).Perm
      ((path, directory entries) :: entries.flatMap fun e => e.2.walk (Path.join path e.1)) := by
  rw [walk, walkEntries_eq]
  have hsorted := List.mergeSort_perm (entries.map fun e => (e.1, e.2.walk (Path.join path e.1)))
    fun a b => decide (a.1 ≤ b.1)
  have hparts := hsorted.flatMap_right (·.2)
  rw [List.flatMap_map] at hparts
  exact hparts.cons _

/-- **A walk lists each position once**, if the names of the entries tell them apart. -/
theorem nodup_walk {t : FileTree} (h : t.HasNames) (path : String) :
    ((t.walk path).map Prod.fst).Nodup := by
  induction h generalizing path with
  | file content => simp [walk]
  | @directory entries names nodup _ ih =>
    rw [((walk_directory_perm path entries).map Prod.fst).nodup_iff, List.map_cons,
      List.map_flatMap, List.nodup_cons, List.nodup_flatMap]
    have hat {e : String × FileTree} {position : String}
        (h : position ∈ (e.2.walk (Path.join path e.1)).map Prod.fst) :
        ∃ tree : FileTree, tree.IsAt position (Path.join path e.1) e.2 := by
      obtain ⟨⟨_, tree⟩, hmem, rfl⟩ := List.mem_map.mp h
      exact ⟨tree, mem_walk_iff.mp hmem⟩
    refine ⟨?_, fun e he => ih e he _, ?_⟩
    · intro hmem
      obtain ⟨e, he, hbelow⟩ := List.mem_flatMap.mp hmem
      obtain ⟨tree, h⟩ := hat hbelow
      have hlong := Path.length_lt_length_join (names e he).ne_empty path
      exact absurd h.prefix.length_le (Nat.not_le.mpr hlong)
    · have hdistinct := List.pairwise_map.mp nodup
      refine hdistinct.imp_of_mem ?_
      intro e₁ e₂ he₁ he₂ hne position hmem₁ hmem₂
      obtain ⟨tree₁, h₁⟩ := hat hmem₁
      obtain ⟨tree₂, h₂⟩ := hat hmem₂
      exact hne (h₁.name_eq (names e₁ he₁) (names e₂ he₂) h₂)

end FileTree

end RouterCalldata
