import RouterCalldata.Proofs.Document.JsonTokens

/-!
# What is written of a document

A document is written on one line or over several, and both texts have the same tokens, those of
the document.  On one line no line end is among its characters, since a text escapes its own.

## Main definitions

* `Document.tokens`: the tokens of a document;
* `Document.Fits`: what a JSON text can hold as it is.

## Main results

* `Document.Fits.spells_toJson`, `Document.Fits.spells_toJsonAt`: both ways to write a document;
* `Document.Fits.newline_not_mem`: a document on one line is one line.
-/

namespace RouterCalldata

namespace Document

open Json

/-! ## Documents -/

mutual

/-- The tokens of a document. -/
def tokens : Document → List Token
  | array items => .openArray :: itemsTokens [] items ++ [.closeArray]
  | object members => .openObject :: membersTokens [] members ++ [.closeObject]
  | string s => [.text (some s)]
  | d => [.scalar d]

/-- The tokens of items, `mark` standing in front of the first one. -/
def itemsTokens (mark : List Token) : List Document → List Token
  | [] => []
  | d :: rest => mark ++ tokens d ++ itemsTokens [.comma] rest

/-- The tokens of members, `mark` standing in front of the first one. -/
def membersTokens (mark : List Token) : List (String × Document) → List Token
  | [] => []
  | (name, d) :: rest =>
      mark ++ (.text (some name) :: .colon :: tokens d) ++ membersTokens [.comma] rest

end

/-- The tokens of a member. -/
def memberTokens (m : String × Document) : List Token :=
  .text (some m.1) :: .colon :: tokens m.2

theorem itemsTokens_eq (mark : List Token) (items : List Document) :
    itemsTokens mark items = entries .comma mark tokens items := by
  induction items generalizing mark with
  | nil => simp [itemsTokens, entries]
  | cons d rest ih => simp [itemsTokens, entries, ih]

theorem membersTokens_eq (mark : List Token) (members : List (String × Document)) :
    membersTokens mark members = entries .comma mark memberTokens members := by
  induction members generalizing mark with
  | nil => simp [membersTokens, entries]
  | cons m rest ih => simp [membersTokens, entries, memberTokens, ih]

/-- A JSON text can hold the document as it is: its numbers are whole ones of 64 bits, and at most
`room` containers stand inside each other. -/
inductive Fits : Nat → Document → Prop
  | null {room : Nat} : Fits room null
  | bool {room : Nat} (b : Bool) : Fits room (bool b)
  | nat {room n : Nat} (h : n < Nat.pow 2 64) : Fits room (number (.nat n))
  | string {room : Nat} (s : String) : Fits room (string s)
  | array {room : Nat} {items : List Document} (h : ∀ d ∈ items, Fits room d) :
      Fits (room + 1) (array items)
  | object {room : Nat} {members : List (String × Document)} (h : ∀ m ∈ members, Fits room m.2) :
      Fits (room + 1) (object members)

theorem Fits.mono {room room' : Nat} {d : Document} (h : Fits room d) (hle : room ≤ room') :
    Fits room' d := by
  induction h generalizing room' with
  | null => exact Fits.null
  | bool b => exact Fits.bool b
  | nat h => exact Fits.nat h
  | string s => exact Fits.string s
  | array h ih =>
    cases room' with
    | zero => exact absurd hle (by omega)
    | succ room' => exact Fits.array fun d hd => ih d hd (Nat.le_of_succ_le_succ hle)
  | object h ih =>
    cases room' with
    | zero => exact absurd hle (by omega)
    | succ room' => exact Fits.object fun m hm => ih m hm (Nat.le_of_succ_le_succ hle)

/-! ### On one line -/

theorem toList_itemsToJson (mark : String) (items : List Document) :
    (itemsToJson mark items).toList =
      entries ',' mark.toList (fun d => d.toJson.toList) items := by
  induction items generalizing mark with
  | nil => simp [itemsToJson, entries]
  | cons d rest ih => simp [itemsToJson, entries, ih]

theorem toList_membersToJson (mark : String) (members : List (String × Document)) :
    (membersToJson mark members).toList = entries ',' mark.toList
      (fun m => (quoted m.1).toList ++ ':' :: m.2.toJson.toList) members := by
  induction members generalizing mark with
  | nil => simp [membersToJson, entries]
  | cons m rest ih => simp [membersToJson, entries, ih]

theorem spells_member {m : String × Document} {gap text : List Char}
    (hgap : ∀ c ∈ gap, c = ' ' ∨ c = '\n') (h : Spells text m.2.tokens) :
    Spells ((quoted m.1).toList ++ ':' :: (gap ++ text)) (memberTokens m) := by
  have hcolon : Passes [':'] [.colon] := fun _ => rfl
  have hvalue := hcolon.append_spells ((passes_blanks hgap).append_spells h)
  exact (passes_quoted m.1).append_spells hvalue

/-- **A document on one line spells its tokens.** -/
theorem Fits.spells_toJson {room : Nat} {d : Document} (h : Fits room d) :
    Spells d.toJson.toList d.tokens := by
  have hgap : ∀ c ∈ ([] : List Char), c = ' ' ∨ c = '\n' := by simp
  induction h with
  | null => simpa [toJson, tokens] using spells_null
  | bool b =>
    cases b with
    | true => simpa [toJson, tokens] using spells_true
    | false => simpa [toJson, tokens] using spells_false
  | nat h => simpa [toJson, tokens, numeral] using spells_repr h
  | string s => simpa [toJson, tokens] using (passes_quoted s).spells
  | array h ih =>
    have hbody := passes_array hgap (spells_entries ih)
    rw [tokens, itemsTokens_eq]
    simpa [toJson, toList_itemsToJson] using hbody.spells
  | @object _ members h ih =>
    have hmember (m : String × Document) (hm : m ∈ members) :
        Spells ((quoted m.1).toList ++ ':' :: ([] ++ m.2.toJson.toList)) (memberTokens m) :=
      spells_member hgap (ih m hm)
    have hbody := passes_object hgap (spells_entries hmember)
    rw [tokens, membersTokens_eq]
    simpa [toJson, toList_membersToJson] using hbody.spells

/-! ### Over several lines -/

theorem toList_itemsToJsonAt (level : Nat) (mark : String) (items : List Document) :
    (itemsToJsonAt level mark items).toList = entries ',' mark.toList
      (fun d => (lineStart level).toList ++ (d.toJsonAt level).toList) items := by
  induction items generalizing mark with
  | nil => simp [itemsToJsonAt, entries]
  | cons d rest ih => simp [itemsToJsonAt, entries, ih]

theorem toList_membersToJsonAt (level : Nat) (mark : String)
    (members : List (String × Document)) :
    (membersToJsonAt level mark members).toList = entries ',' mark.toList
      (fun m => (lineStart level).toList ++
        ((quoted m.1).toList ++ ':' :: ([' '] ++ (m.2.toJsonAt level).toList))) members := by
  induction members generalizing mark with
  | nil => simp [membersToJsonAt, entries]
  | cons m rest ih => simp [membersToJsonAt, entries, ih]

theorem mem_lineStart (level : Nat) : ∀ c ∈ (lineStart level).toList, c = ' ' ∨ c = '\n' := by
  intro c h
  simp [lineStart] at h
  rcases h with h | h
  · exact Or.inr h
  · exact Or.inl h.2

/-- **A document over several lines spells the same tokens**, at whatever level it stands. -/
theorem Fits.spells_toJsonAt {room : Nat} {d : Document} (h : Fits room d) (level : Nat) :
    Spells (d.toJsonAt level).toList d.tokens := by
  have hnone : ∀ c ∈ ([] : List Char), c = ' ' ∨ c = '\n' := by simp
  have hspace : ∀ c ∈ [' '], c = ' ' ∨ c = '\n' := by simp
  -- the parts of a container stand one level deeper, so the induction is for all levels
  induction h generalizing level with
  | null => simpa [toJsonAt, tokens] using spells_null
  | bool b =>
    cases b with
    | true => simpa [toJsonAt, toJson, tokens] using spells_true
    | false => simpa [toJsonAt, toJson, tokens] using spells_false
  | nat h => simpa [toJsonAt, tokens, numeral] using spells_repr h
  | string s => simpa [toJsonAt, tokens] using (passes_quoted s).spells
  | @array _ items h ih =>
    cases items with
    | nil =>
      have hbody := passes_array hnone passes_nil.spells
      simpa [toJsonAt, tokens, itemsTokens] using hbody.spells
    | cons d rest =>
      have hitems := spells_entries fun d hd =>
        (passes_blanks (mem_lineStart (level + 1))).append_spells (ih d hd (level + 1))
      have hbody := passes_array (mem_lineStart level) hitems
      rw [tokens, itemsTokens_eq]
      simpa [toJsonAt, toList_itemsToJsonAt] using hbody.spells
  | @object _ members h ih =>
    cases members with
    | nil =>
      have hbody := passes_object hnone passes_nil.spells
      simpa [toJsonAt, tokens, membersTokens] using hbody.spells
    | cons m rest =>
      have hmember (m' : String × Document) (hm : m' ∈ m :: rest) :
          Spells ((lineStart (level + 1)).toList ++ ((quoted m'.1).toList ++
            ':' :: ([' '] ++ (m'.2.toJsonAt (level + 1)).toList))) (memberTokens m') :=
        (passes_blanks (mem_lineStart (level + 1))).append_spells
          (spells_member hspace (ih m' hm (level + 1)))
      have hbody := passes_object (mem_lineStart level) (spells_entries hmember)
      rw [tokens, membersTokens_eq]
      simpa [toJsonAt, toList_membersToJsonAt] using hbody.spells

/-! ### No line ends -/

theorem newline_not_mem_unitDigits {c : Char} (h : c.toNat < 0x20) : '\n' ∉ unitDigits c := by
  have hdigits : ∀ n < 16, '\n' ≠ Hex.digit n := by decide
  have hhigh := hdigits (c.toNat / 16) (by omega)
  have hlow := hdigits (c.toNat % 16) (by omega)
  simp [unitDigits, hhigh, hlow]

theorem newline_not_mem_escape (c : Char) : '\n' ∉ escape c := by
  unfold escape
  split_ifs with hquote hslash hnewline hreturn htab h8 h12 hlow
  all_goals simp
  · exact newline_not_mem_unitDigits hlow
  · exact Ne.symm hnewline

theorem newline_not_mem_quoted (s : String) : '\n' ∉ (quoted s).toList := by
  simp [quoted, newline_not_mem_escape]

theorem newline_not_mem_entries {α : Type} {write : α → List Char} {xs : List α}
    (h : ∀ x ∈ xs, '\n' ∉ write x) (mark : List Char) (hmark : '\n' ∉ mark) :
    '\n' ∉ entries ',' mark write xs := by
  induction xs generalizing mark with
  | nil => simp [entries]
  | cons x rest ih =>
    have hx := h x List.mem_cons_self
    have hrest := ih (fun y hy => h y (List.mem_cons_of_mem _ hy)) [','] (by simp)
    simp [entries, hmark, hx, hrest]

/-- **A document on one line is one line.** -/
theorem Fits.newline_not_mem {room : Nat} {d : Document} (h : Fits room d) :
    '\n' ∉ d.toJson.toList := by
  induction h with
  | null => simp [toJson]
  | bool b => cases b <;> simp [toJson]
  | @nat _ n h =>
    intro hmem
    exact absurd ((isNumeral_repr h).isDigit _ hmem) (by decide)
  | string s => exact newline_not_mem_quoted s
  | array h ih =>
    have hitems := newline_not_mem_entries ih [] (by simp)
    simpa [toJson, toList_itemsToJson] using hitems
  | @object _ members h ih =>
    have hmember (m : String × Document) (hm : m ∈ members) :
        '\n' ∉ (quoted m.1).toList ++ ':' :: m.2.toJson.toList := by
      simp [newline_not_mem_quoted, ih m hm]
    have hmembers := newline_not_mem_entries hmember [] (by simp)
    simpa [toJson, toList_membersToJson] using hmembers

/-- An object on one line is a line that no carriage return ends. -/
theorem Fits.object_isLine {room : Nat} {members : List (String × Document)}
    (h : Fits room (Document.object members)) :
    '\n' ∉ (Document.object members).toJson.toList ∧
      (Document.object members).toJson.toList.getLast? ≠ some '\r' := by
  refine ⟨h.newline_not_mem, ?_⟩
  have htext : (Document.object members).toJson.toList =
      ('\x7b' :: (membersToJson "" members).toList) ++ ['\x7d'] := by
    simp [toJson]
  rw [htext, List.getLast?_concat]
  simp

end Document

end RouterCalldata
