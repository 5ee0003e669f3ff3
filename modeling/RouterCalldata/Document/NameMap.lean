/-!
# Maps from names to texts

A map is the list of its entries in the order of their first insertion, each
name once.  Inserting a name again replaces its text.

## Main definitions

* `NameMap`: the entries, with the proof that no name repeats;
* `NameMap.insert`, `NameMap.ofList`: later entries win over earlier ones;
* `NameMap.get?`: the text of a name;
* `NameMap.sorted`: the entries in the order of their names.
-/

namespace RouterCalldata

/-- A map from names to texts. -/
structure NameMap where
  entries : List (String × String)
  nodup : (entries.map (·.1)).Nodup := by decide
  deriving DecidableEq

namespace NameMap

/-- The entries with one of them replaced or added at the end. -/
def put (name text : String) : List (String × String) → List (String × String)
  | [] => [(name, text)]
  | e :: rest => if e.1 = name then (name, text) :: rest else e :: put name text rest

theorem mem_names_put {name text s : String} {es : List (String × String)} :
    s ∈ (put name text es).map (·.1) ↔ s = name ∨ s ∈ es.map (·.1) := by
  induction es with
  | nil => simp [put]
  | cons e rest ih =>
    by_cases h : e.1 = name
    · simp [put, h]
    · simp only [put, h, if_false, List.map_cons, List.mem_cons, ih]
      exact or_left_comm

theorem nodup_names_put {name text : String} {es : List (String × String)}
    (h : (es.map (·.1)).Nodup) : ((put name text es).map (·.1)).Nodup := by
  induction es with
  | nil => simp [put]
  | cons e rest ih =>
    have hr := (List.nodup_cons.mp h).2
    have he := (List.nodup_cons.mp h).1
    by_cases hn : e.1 = name
    · simpa [put, hn] using h
    · simp only [put, hn, if_false, List.map_cons]
      refine List.nodup_cons.mpr ⟨fun hm => ?_, ih hr⟩
      rcases mem_names_put.mp hm with hm | hm
      · exact hn hm
      · exact he hm

/-- The map without entries. -/
def empty : NameMap := { entries := [] }

/-- Sets the text of a name. -/
def insert (m : NameMap) (name text : String) : NameMap :=
  { entries := put name text m.entries, nodup := nodup_names_put m.nodup }

/-- The map of a list of entries. -/
def ofList (es : List (String × String)) : NameMap :=
  es.foldl (fun m e => m.insert e.1 e.2) empty

/-- The text of a name. -/
def get? (m : NameMap) (name : String) : Option String :=
  m.entries.lookup name

/-- The entries in increasing order of their names.  The order of code points
is the order of UTF-8 bytes. -/
def sorted (m : NameMap) : List (String × String) :=
  m.entries.mergeSort fun a b => decide (a.1 ≤ b.1)

end NameMap

end RouterCalldata
