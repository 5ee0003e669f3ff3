import Mathlib.Data.List.Nodup
import RouterCalldata.Document.Value

/-!
# Members of an object

An object is the list of its members as they were written, and its reader asks for each member that
it knows by name.  It counts the members of that name, so that a repetition is refused; where no
name repeats, what it finds is what a look-up finds.  Either way neither the order of the members
nor a member of another name plays a part.

## Main definitions

* `IsJson`: the documents that are JSON values;
* `Rearranged`: members in another order, among members of names that are not known.

## Main results

* `Rearranged.required_eq`, `Rearranged.optional_eq`, `Rearranged.orElse_eq`: the known members are
  read as before;
* `required_eq_bind`, `orElse_eq_some`, `optional_eq_some`: members without repetition are looked
  up.
-/

namespace RouterCalldata.Document

/-! ## JSON values -/

/-- The documents that are JSON values: null, truth values, numbers and texts, and arrays and
objects of these. -/
inductive IsJson : Document → Prop
  | null : IsJson null
  | bool (b : Bool) : IsJson (bool b)
  | number (n : Numeral) : IsJson (number n)
  | string (s : String) : IsJson (string s)
  | array {items : List Document} (h : ∀ d ∈ items, IsJson d) : IsJson (array items)
  | object {members : List (String × Document)} (h : ∀ m ∈ members, IsJson m.2) :
      IsJson (object members)

theorem areReadable_iff {items : List Document} :
    areReadable items = true ↔ ∀ d ∈ items, d.isReadable = true := by
  induction items with
  | nil => simp [areReadable]
  | cons d rest ih => simp [areReadable, ih]

theorem haveReadable_iff {members : List (String × Document)} :
    haveReadable members = true ↔ ∀ m ∈ members, m.2.isReadable = true := by
  induction members with
  | nil => simp [haveReadable]
  | cons m rest ih => simp [haveReadable, ih]

/-- A JSON value can be taken as a whole. -/
theorem IsJson.isReadable {d : Document} (h : d.IsJson) : d.isReadable = true := by
  induction h with
  | array h ih =>
    unfold Document.isReadable
    exact areReadable_iff.mpr ih
  | object h ih =>
    unfold Document.isReadable
    exact haveReadable_iff.mpr ih
  | _ => rfl

/-- A JSON value is what its spelling makes it. -/
theorem IsJson.resolved_eq_self {d : Document} (h : d.IsJson) : d.resolved = d := by
  cases h <;> rfl

theorem map_resolved_eq_self {members : List (String × Document)} (h : ∀ m ∈ members, m.2.IsJson) :
    members.map (fun (name, d) => (name, d.resolved)) = members := by
  have hself : ∀ m ∈ members, (m.1, m.2.resolved) = id m := by
    intro m hm
    rw [(h m hm).resolved_eq_self]
    rfl
  exact (List.map_congr_left hself).trans (List.map_id members)

/-! ## Members by name -/

variable {ms ms' more : List (String × Document)} {name : String}

/-- The order of the members does not matter. -/
theorem member?_of_perm (h : ms'.Perm ms) (name : String) : member? ms' name = member? ms name := by
  have hfound := h.filter (·.1 == name)
  unfold member?
  cases hms : ms.filter (·.1 == name) with
  | nil =>
    rw [hms] at hfound
    rw [hfound.eq_nil]
  | cons m rest =>
    rw [hms] at hfound
    cases rest with
    | nil => rw [List.perm_singleton.mp hfound]
    | cons m' rest =>
      have hlen := hfound.length_eq
      rcases hms' : ms'.filter (·.1 == name) with _ | ⟨n, _ | ⟨n', rest'⟩⟩
      · simp [hms'] at hlen
      · simp [hms'] at hlen
      · rw [hms']

/-- Members of other names do not matter. -/
theorem member?_append (h : ∀ m ∈ more, m.1 ≠ name) :
    member? (ms ++ more) name = member? ms name := by
  have hmore : more.filter (·.1 == name) = [] := by
    apply List.filter_eq_nil_iff.mpr
    intro m hm
    simpa using h m hm
  unfold member?
  rw [List.filter_append, hmore, List.append_nil]

/-- The members of `ms` in any order, among any further members that are JSON values under names
that are not known. -/
def Rearranged (known : List String) (ms ms' : List (String × Document)) : Prop :=
  ∃ more, ms'.Perm (ms ++ more) ∧ ∀ m ∈ more, m.1 ∉ known ∧ m.2.IsJson

namespace Rearranged

variable {α : Type} {known : List String} {read : Document → Option α}

theorem refl (known : List String) (ms : List (String × Document)) : Rearranged known ms ms :=
  ⟨[], by simp, by simp⟩

/-- The members turned round, behind a further one. -/
theorem turned {m : String × Document} (hname : m.1 ∉ known) (hjson : m.2.IsJson)
    (ms : List (String × Document)) : Rearranged known ms (m :: ms.reverse) := by
  refine ⟨[m], ?_, ?_⟩
  · exact ((List.reverse_perm ms).cons m).trans (List.perm_append_singleton m ms).symm
  · intro m' hm'
    obtain rfl := List.mem_singleton.mp hm'
    exact ⟨hname, hjson⟩

theorem member?_eq (h : Rearranged known ms ms') (hname : name ∈ known) :
    member? ms' name = member? ms name := by
  obtain ⟨more, hperm, hmore⟩ := h
  rw [member?_of_perm hperm]
  apply member?_append
  rintro m hm rfl
  exact (hmore m hm).1 hname

/-- The further members are not changed by resolving all members. -/
theorem resolved (h : Rearranged known ms ms') :
    Rearranged known (ms.map fun (name, d) => (name, d.resolved))
      (ms'.map fun (name, d) => (name, d.resolved)) := by
  obtain ⟨more, hperm, hmore⟩ := h
  refine ⟨more, ?_, hmore⟩
  have hself := map_resolved_eq_self fun m hm => (hmore m hm).2
  have hmap := hperm.map fun ((name, d) : String × Document) => (name, d.resolved)
  rwa [List.map_append, hself] at hmap

theorem required_eq (h : Rearranged known ms ms') (hname : name ∈ known) :
    required ms' name read = required ms name read := by
  unfold required
  rw [h.member?_eq hname]

theorem orElse_eq (h : Rearranged known ms ms') {default : α} (hname : name ∈ known) :
    orElse ms' name default read = orElse ms name default read := by
  unfold orElse
  rw [h.member?_eq hname]

theorem optional_eq (h : Rearranged known ms ms') (hname : name ∈ known) :
    optional ms' name read = optional ms name read :=
  h.orElse_eq hname

end Rearranged

/-! ## Members without repetition -/

/-- Where no name repeats, asking for a member is looking it up. -/
theorem member?_eq_lookup (h : (ms.map (·.1)).Nodup) (name : String) :
    member? ms name = some (ms.lookup name) := by
  induction ms with
  | nil => rfl
  | cons m rest ih =>
    obtain ⟨name', d⟩ := m
    rw [List.map_cons, List.nodup_cons] at h
    by_cases hname : name' = name
    · have hrest : rest.filter (·.1 == name) = [] := by
        apply List.filter_eq_nil_iff.mpr
        intro m hm hm'
        apply h.1
        rw [hname, ← eq_of_beq hm']
        exact List.mem_map.mpr ⟨m, hm, rfl⟩
      simp [member?, hname, hrest]
    · have hrest := ih h.2
      unfold member? at hrest ⊢
      simp only [List.filter_cons, beq_iff_eq, hname, if_false, List.lookup_cons]
      rw [hrest, beq_false_of_ne (Ne.symm hname)]

variable {α : Type} {read : Document → Option α}

theorem required_eq_bind (h : (ms.map (·.1)).Nodup) :
    required ms name read = (ms.lookup name).bind read := by
  unfold required
  rw [member?_eq_lookup h]
  rfl

theorem orElse_eq_of_lookup (h : (ms.map (·.1)).Nodup) {default : α} :
    orElse ms name default read = ((ms.lookup name).map read).getD (some default) := by
  unfold orElse
  rw [member?_eq_lookup h]
  cases ms.lookup name with
  | none => rfl
  | some d => rfl

/-- A member that is there exactly if its value is set is read as that value. -/
theorem orElse_eq_some (h : (ms.map (·.1)).Nodup) {value : Option α} {default : α}
    (show' : α → Document) (hlookup : ms.lookup name = value.map show')
    (hread : ∀ v, read (show' v) = some v) :
    orElse ms name default read = some (value.getD default) := by
  rw [orElse_eq_of_lookup h, hlookup]
  cases value with
  | none => rfl
  | some v => simp [hread v]

theorem optional_eq_some (h : (ms.map (·.1)).Nodup) {value : Option α} (show' : α → Document)
    (hlookup : ms.lookup name = value.map show')
    (hread : ∀ v, asOption? read (show' v) = some (some v)) :
    optional ms name read = some value := by
  rw [optional, orElse_eq_of_lookup h, hlookup]
  cases value with
  | none => rfl
  | some v => simp [hread v]

theorem names_shown_sublist (name : String) (value : Option α) (show' : α → Document) :
    ((shown name value show').map (·.1)).Sublist [name] := by
  cases value <;> simp [shown]

theorem mem_shown {value : Option α} {show' : α → Document} {m : String × Document} :
    m ∈ shown name value show' ↔ ∃ v, value = some v ∧ m = (name, show' v) := by
  cases value <;> simp [shown]

theorem isJson_of_mem_shown {value : Option α} {show' : α → Document} (h : ∀ v, (show' v).IsJson)
    {m : String × Document} (hm : m ∈ shown name value show') : m.2.IsJson := by
  obtain ⟨v, -, rfl⟩ := mem_shown.mp hm
  exact h v

theorem lookup_shown (value : Option α) (show' : α → Document) (name name' : String) :
    (shown name value show').lookup name' =
      if name' = name then value.map show' else none := by
  cases value with
  | none => simp [shown]
  | some v =>
    by_cases h : name' = name
    · simp [shown, h]
    · simp [shown, List.lookup_cons, h, beq_false_of_ne h]

end RouterCalldata.Document
