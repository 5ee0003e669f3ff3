import Mathlib.Data.List.Forall2
import RouterCalldata.Proofs.Config.Overlay
import RouterCalldata.Proofs.Text.Utf8

/-!
# The line of directives

The log's filter is set up with one line of text, and the components in it come from a map.  A map
lists its entries in no particular order, and neither do the members of the document that it was
read from, while a line of text has an order.  It is that of the components' names, taken before the
names are spelled as the filter spells them.  So names that are spelled alike have their places as
well, and the spelled names need not be in order: `call-tree`, `callTree` and `call_tree` stand in
this order, and the first and the last of them are spelled alike.

## Main definitions

* `LogConfig.IsLine`: a line gives each component of a map its level, stated without sorting;
* `LogConfig.IsSetUp`: a set-up whose components were listed in a certain order.

## Main results

* `LogConfig.directives_eq_iff`: the directives are the only line for the components;
* `LogConfig.IsSetUp.exists_eq`: a set-up is there, whatever it comes from;
* `LogConfig.directives_of_isListing`: the order in which the components are listed does not matter.
-/

namespace RouterCalldata

open NameMap (IsListing)

/-- A list is related element by element to that of the elements' images, if an element is related
to its image only. -/
theorem forall₂_iff_map_eq {α β : Type} {R : α → β → Prop} {f : α → β}
    (h : ∀ a b, R a b ↔ f a = b) {as : List α} {bs : List β} :
    List.Forall₂ R as bs ↔ as.map f = bs := by
  have hR : R = fun a b => f a = b := by
    funext a b
    exact propext (h a b)
  rw [hR, ← List.forall₂_map_left_iff, List.forall₂_eq_eq_eq]

namespace LogConfig

/-! ## Lines -/

/-- The text is the name with an underscore for each hyphen and nothing else changed. -/
def IsSpelling (name spelled : String) : Prop :=
  List.Forall₂ (fun c c' => c = '-' ∧ c' = '_' ∨ c ≠ '-' ∧ c' = c) name.toList spelled.toList

/-- The text gives a component its level. -/
def IsPiece (e : String × String) (piece : String) : Prop :=
  ∃ spelled, IsSpelling e.1 spelled ∧ piece = "," ++ spelled ++ "=" ++ e.2

/-- The line holds the level and then one piece for each component, in increasing order of the bytes
of their names. -/
def IsLine (level : String) (levels : String → Option String) (line : String) : Prop :=
  ∃ es pieces, IsListing levels es ∧
    es.Pairwise (fun e e' => Hex.utf8 e.1.toList < Hex.utf8 e'.1.toList) ∧
    List.Forall₂ IsPiece es pieces ∧ line = level ++ String.join pieces

theorem isSpelling_iff {name spelled : String} :
    IsSpelling name spelled ↔ directiveName name = spelled := by
  have hchar (c c' : Char) :
      c = '-' ∧ c' = '_' ∨ c ≠ '-' ∧ c' = c ↔ (if c = '-' then '_' else c) = c' := by
    by_cases hc : c = '-'
    · simp [hc, eq_comm]
    · simp [hc, eq_comm]
  rw [IsSpelling, forall₂_iff_map_eq hchar, ← String.toList_inj, directiveName, String.toList_map]

theorem isPiece_iff (e : String × String) (piece : String) :
    IsPiece e piece ↔ "," ++ directiveName e.1 ++ "=" ++ e.2 = piece := by
  constructor
  · rintro ⟨spelled, hspelled, rfl⟩
    rw [isSpelling_iff.mp hspelled]
  · rintro rfl
    exact ⟨directiveName e.1, isSpelling_iff.mpr rfl, rfl⟩

/-- **The directives are the only line for the components.** -/
theorem directives_eq_iff {c : LogConfig} {line : String} :
    c.directives = line ↔ IsLine c.level c.components.get? line := by
  constructor
  · rintro rfl
    have hpieces : List.Forall₂ IsPiece c.components.sorted _ :=
      (forall₂_iff_map_eq isPiece_iff).mpr rfl
    refine ⟨c.components.sorted, _, c.components.isListing_sorted, ?_, hpieces, rfl⟩
    exact c.components.pairwise_sorted.imp utf8_lt_utf8_iff.mpr
  · rintro ⟨es, pieces, hes, hbytes, hpieces, rfl⟩
    obtain rfl : es = c.components.sorted :=
      hes.eq_of_pairwise c.components.isListing_sorted (hbytes.imp utf8_lt_utf8_iff.mp)
        c.components.pairwise_sorted
    rw [← (forall₂_iff_map_eq isPiece_iff).mp hpieces]
    rfl

/-! ## Set-ups -/

/-- The document holds the level, the components `es` in that order and whether the log is in JSON,
in any order and among further members of names that are not known. -/
def IsWritten (level : String) (es : List (String × String)) (d : Document) : Prop :=
  ∃ json ms, d = .object ms ∧
    Document.Rearranged memberNames
      [("level", .string level), ("components", .object (es.map fun e => (e.1, .string e.2))),
        ("json", .bool json)] ms

/-- A set-up with the given level and with the components `es`, which were listed in that order.
What is to be read from a document might not be there, hence the option. -/
inductive IsSetUp (level : String) (es : List (String × String)) : Option LogConfig → Prop
  /-- The map of the set-up holds the components in that order. -/
  | held (c : LogConfig) (hlevel : c.level = level) (hentries : c.components.entries = es) :
      IsSetUp level es (some c)
  /-- The components are inserted one after the other. -/
  | inserted (json : Bool) :
      IsSetUp level es (some { level := level, components := .ofList es, json := json })
  /-- The set-up is read from a document of its own. -/
  | read {d : Document} (hwritten : IsWritten level es d) : IsSetUp level es (ofDocument? d)
  /-- The set-up is made from the log's section of a configuration. -/
  | configured {d : Document} (hwritten : IsWritten level es d) :
      IsSetUp level es ((LogSettings.ofDocument? d).map ofSettings)

variable {level : String} {levels : String → Option String} {es es' : List (String × String)}
  {r r' : Option LogConfig}

/-- The log's section is read with its components in the order in which they are written. -/
theorem IsWritten.exists_read {d : Document} (h : IsWritten level es d)
    (hnodup : (es.map (·.1)).Nodup) :
    ∃ json, LogSettings.ofDocument? d =
      some { level := level, components := { entries := es, nodup := hnodup }, json := json } := by
  obtain ⟨json, ms, rfl, hms⟩ := h
  refine ⟨json, ?_⟩
  rw [LogSettings.readsBack.read_rearranged _ ms hms]
  exact LogSettings.readsBack.read_write
    { level := level, components := { entries := es, nodup := hnodup }, json := json } trivial

/-- **A set-up is there, whatever it comes from**, and holds the components as they were listed. -/
theorem IsSetUp.exists_eq (h : IsSetUp level es r) (hnodup : (es.map (·.1)).Nodup) :
    ∃ c, r = some c ∧ c.level = level ∧ c.components.entries = es := by
  cases h with
  | held c hlevel hentries => exact ⟨c, rfl, hlevel, hentries⟩
  | inserted json => exact ⟨_, rfl, rfl, NameMap.entries_ofList hnodup⟩
  | read hwritten =>
    obtain ⟨json, hread⟩ := hwritten.exists_read hnodup
    rw [← ofSettings_ofDocument?, hread]
    exact ⟨_, rfl, rfl, rfl⟩
  | configured hwritten =>
    obtain ⟨json, hread⟩ := hwritten.exists_read hnodup
    rw [hread]
    exact ⟨_, rfl, rfl, rfl⟩

/-- A set-up is there, and its directives are the only line for what was listed. -/
theorem IsSetUp.exists_directives (h : IsSetUp level es r) (hes : IsListing levels es) :
    ∃ line, r.map directives = some line ∧ ∀ line', IsLine level levels line' ↔ line' = line := by
  obtain ⟨c, rfl, rfl, hentries⟩ := h.exists_eq hes.nodup
  have hlevels : c.components.get? = levels := by
    rw [← hentries] at hes
    exact hes.get?_eq
  refine ⟨c.directives, rfl, ?_⟩
  intro line'
  rw [← hlevels, ← directives_eq_iff, eq_comm]

/-- **The order in which the components are listed does not matter.**  Any two listings of the same
components, whether they are held, inserted or written in that order, give the same directives, and
these are the only line for the components. -/
theorem directives_of_isListing (hes : IsListing levels es) (hes' : IsListing levels es')
    (h : IsSetUp level es r) (h' : IsSetUp level es' r') :
    ∃ line, r.map directives = some line ∧ r'.map directives = some line ∧
      ∀ line', IsLine level levels line' ↔ line' = line := by
  obtain ⟨line, hline, honly⟩ := h.exists_directives hes
  obtain ⟨line', hline', honly'⟩ := h'.exists_directives hes'
  have hsame : line' = line := (honly line').mp ((honly' line').mpr rfl)
  rw [hsame] at hline'
  exact ⟨line, hline, hline', honly⟩

/-- Names that are spelled alike, and names that are in another order once they are spelled. -/
theorem directives_of_isListing_spelledAlike :
    let components : NameMap := {
      entries := [("call_tree", "warn"), ("état-", "off"), ("call-tree", "trace"),
        ("callTree", "debug")] }
    let inserted : LogConfig := {
      level := "info"
      components := .ofList components.entries
      json := false }
    let written : Document := .object [("note", .null), ("json", .bool true),
      ("components", .object (components.entries.reverse.map fun e => (e.1, .string e.2))),
      ("level", .string "info")]
    let line := "info,call_tree=trace,callTree=debug,call_tree=warn,état_=off"
    IsListing components.get? components.entries ∧
      IsListing components.get? components.entries.reverse ∧
      IsSetUp "info" components.entries (some inserted) ∧
      IsSetUp "info" components.entries.reverse (ofDocument? written) ∧
      inserted.directives = line ∧ (ofDocument? written).map directives = some line := by
  intro components inserted written line
  have hlisted := components.isListing_entries
  have hturned := hlisted.of_perm (List.reverse_perm components.entries)
  have hinserted : IsSetUp "info" components.entries (some inserted) := .inserted false
  have hwritten : IsSetUp "info" components.entries.reverse (ofDocument? written) :=
    .read ⟨true, _, rfl, .turned (by decide) .null _⟩
  have hline : IsLine "info" components.get? line := by
    refine ⟨[("call-tree", "trace"), ("callTree", "debug"), ("call_tree", "warn"),
      ("état-", "off")],
      [",call_tree=trace", ",callTree=debug", ",call_tree=warn", ",état_=off"],
      hlisted.of_perm (by decide), by decide, ?_, by decide⟩
    refine .cons ⟨"call_tree", ?_, by decide⟩ (.cons ⟨"callTree", ?_, by decide⟩
      (.cons ⟨"call_tree", ?_, by decide⟩ (.cons ⟨"état_", ?_, by decide⟩ .nil)))
    all_goals simp [IsSpelling]
  obtain ⟨line', hleft, hright, honly⟩ :=
    directives_of_isListing hlisted hturned hinserted hwritten
  rw [← (honly line).mp hline] at hleft hright
  exact ⟨hlisted, hturned, hinserted, hwritten, Option.some.inj hleft, hright⟩

end LogConfig

end RouterCalldata
