import RouterCalldata.Multicall
import RouterCalldata.Proofs.Record.Faultless

/-!
# Looking methods up

Within a table no selector is listed twice, so that a selector finds a method exactly if it is the
selector of this method.  The two methods that take an array of calls are found by their selectors
in the same way; all others have fields to be read.

## Main definitions

* `Method.layout`: the shape of a method's parameter block.

## Main results

* `Method.resolve_eq_ok_iff`, `Method.eq_of_resolve_eq_error`: what a selector finds in the table of
  a version, and how it fails;
* `Multicall.ofSelector?_eq_some_iff`, `Multicall.ofSelector?_selector_eq_none_iff`: which selectors
  are those of multicalls;
* `Method.layout_ne_calls`, `Method.checked_decode`: a method that takes no array of calls has
  fields, and fails only by what its block holds.
-/

namespace RouterCalldata

/-! ## Selectors -/

theorem V2Method.ofSelector?_eq_some_iff {s : Selector} {m : V2Method} :
    ofSelector? s = some m ↔ m.selector = s := by
  constructor
  · intro h
    have hfound := List.find?_some h
    exact eq_of_beq hfound
  · rintro rfl
    exact ofSelector?_selector m

theorem V3Method.ofSelector?_eq_some_iff {s : Selector} {m : V3Method} :
    ofSelector? s = some m ↔ m.selector = s := by
  constructor
  · intro h
    have hfound := List.find?_some h
    exact eq_of_beq hfound
  · rintro rfl
    exact ofSelector?_selector m

namespace Method

variable {version : Version} {s : Selector} {m : Method}

theorem ofSelector?_eq_some_iff :
    ofSelector? version s = some m ↔ m.version = version ∧ m.selector = s := by
  cases version with
  | v2 =>
    rw [ofSelector?, Option.map_eq_some_iff]
    constructor
    · rintro ⟨m, hm, rfl⟩
      exact ⟨rfl, V2Method.ofSelector?_eq_some_iff.mp hm⟩
    · rintro ⟨hversion, hs⟩
      cases m with
      | v2 m => exact ⟨m, V2Method.ofSelector?_eq_some_iff.mpr hs, rfl⟩
      | v3 m => exact absurd hversion nofun
  | v3 =>
    rw [ofSelector?, Option.map_eq_some_iff]
    constructor
    · rintro ⟨m, hm, rfl⟩
      exact ⟨rfl, V3Method.ofSelector?_eq_some_iff.mp hm⟩
    · rintro ⟨hversion, hs⟩
      cases m with
      | v2 m => exact absurd hversion nofun
      | v3 m => exact ⟨m, V3Method.ofSelector?_eq_some_iff.mpr hs, rfl⟩

/-- **A selector finds a method** of the version exactly if it is the method's own. -/
theorem resolve_eq_ok_iff : resolve version s = .ok m ↔ m.version = version ∧ m.selector = s := by
  rw [← ofSelector?_eq_some_iff, resolve]
  cases ofSelector? version s with
  | none => simp
  | some m' => simp

/-- A method is found again under its selector. -/
theorem resolve_selector (m : Method) : resolve m.version m.selector = .ok m :=
  resolve_eq_ok_iff.mpr ⟨rfl, rfl⟩

/-- A selector that is not in the table is unknown, and looking it up fails in no
other way. -/
theorem eq_of_resolve_eq_error {e : DecodeError} (h : resolve version s = .error e) :
    e = .unknownSelector s version := by
  rw [resolve] at h
  split at h
  · exact absurd h nofun
  · exact (Except.error.inj h).symm

end Method

/-! ## Arrays of calls -/

theorem V3Method.headWord_le_one {m : V3Method} {headWord : Nat} (h : m.headWord? = some headWord) :
    headWord ≤ 1 := by
  revert headWord
  cases m <;> decide

namespace Multicall

/-- **A selector is that of a multicall** exactly if its method has a word that leads
to an array of calls. -/
theorem ofSelector?_eq_some_iff {s : Selector} {m : V3Method} {headWord : Nat} :
    ofSelector? s = some (m, headWord) ↔ m.selector = s ∧ m.headWord? = some headWord := by
  rw [← V3Method.ofSelector?_eq_some_iff, ofSelector?]
  cases V3Method.ofSelector? s with
  | none => simp
  | some m' =>
    simp only [Option.bind_eq_bind, Option.bind_some, Option.bind_eq_some_iff, Option.pure_def,
      Option.some.injEq, Prod.mk.injEq]
    constructor
    · rintro ⟨word, hword, rfl, rfl⟩
      exact ⟨rfl, hword⟩
    · rintro ⟨rfl, hword⟩
      exact ⟨headWord, hword, rfl, rfl⟩

/-- The selector of a method of either router is that of no multicall exactly if
the method takes no array of calls. -/
theorem ofSelector?_selector_eq_none_iff {m : Method} :
    ofSelector? m.selector = none ↔ m.headWord? = none := by
  cases m with
  | v2 m => cases m <;> decide
  | v3 m => cases m <;> decide

end Multicall

/-! ## Layouts -/

namespace Method

/-- The shape of a method's parameter block. -/
def layout : Method → Layout
  | v2 m => m.layout
  | v3 m => m.layout

theorem decode_eq (m : Method) (params : Bytes) :
    m.decode params = m.layout.decode m.name params := by
  cases m with
  | v2 m => rfl
  | v3 m => rfl

/-- A method that takes no array of calls has fields. -/
theorem layout_ne_calls {m : Method} (h : m.headWord? = none) : m.layout ≠ .calls := by
  revert h
  cases m with
  | v2 m => cases m <;> decide
  | v3 m => cases m <;> decide

/-- **A plain call fails only by what its block holds.** -/
theorem checked_decode {m : Method} (h : m.headWord? = none) (params : Bytes) :
    Decoded.Checked (m.decode params) := by
  rw [decode_eq]
  exact Layout.checked_decode params m.name (layout_ne_calls h)

end Method

end RouterCalldata
