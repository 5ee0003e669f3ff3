import RouterCalldata.Proofs.Document.JsonWriting
import RouterCalldata.Proofs.Text.Lines

/-!
# A JSON text is read back

The reader keeps the open containers on a stack and puts each complete value where it belongs.  What
it does with the tokens of a value depends on the stack only in that the value is delivered there,
and in that a container is refused where too many are open around it.  So the tokens of a document
take the machine from where it awaits a value to where the document has been delivered, and by
induction on the document nothing else has to be known of its parts.

## Main results

* `Machine.takes_of_fits`: the tokens of a document deliver it;
* `Document.ofJson?_toJson`, `Document.ofJson?_toJsonLines`: what is written is read back;
* `Document.trim_ne_empty_of_ofJson?`: a blank text denotes no document.
-/

namespace RouterCalldata

open Json Document

namespace Json.Machine

variable {stack : List Frame}

/-- No document starts with what closes a container. -/
theorem exists_tokens_eq_cons (stack : List Frame) (d : Document) :
    ∃ t rest, d.tokens = t :: rest ∧ close? (.array [] :: stack) t = none := by
  cases d with
  | array items => exact ⟨.openArray, _, by rw [tokens]; rfl, rfl⟩
  | object members => exact ⟨.openObject, _, by rw [tokens]; rfl, rfl⟩
  | string s => exact ⟨.text (some s), [], rfl, rfl⟩
  | _ => exact ⟨.scalar _, [], rfl, rfl⟩

/-- The first item of an array is taken like any other value. -/
theorem foldlM_firstItem (d : Document) (rest : List Token) :
    (d.tokens ++ rest).foldlM step ⟨.array [] :: stack, .firstItem⟩ =
      (d.tokens ++ rest).foldlM step ⟨.array [] :: stack, .value⟩ := by
  obtain ⟨t, ts, htokens, hclose⟩ := exists_tokens_eq_cons stack d
  rw [htokens, List.cons_append, List.foldlM_cons, List.foldlM_cons]
  simp [step, hclose]

/-- A value is taken: wherever it is awaited, its tokens deliver it. -/
def Takes (room : Nat) (d : Document) : Prop :=
  ∀ stack : List Frame, stack.length + room ≤ maxDepth →
    d.tokens.foldlM step ⟨stack, .value⟩ = some (deliver stack d)

theorem foldlM_items {room : Nat} {items : List Document} (h : ∀ d ∈ items, Takes room d)
    (hroom : stack.length + (room + 1) ≤ maxDepth) (seen : List Document) :
    (entries .comma [.comma] tokens items).foldlM step ⟨.array seen :: stack, .more⟩ =
      some ⟨.array (items.reverse ++ seen) :: stack, .more⟩ := by
  induction items generalizing seen with
  | nil => rfl
  | cons d rest ih =>
    have hd := h d List.mem_cons_self (.array seen :: stack) (by simp; omega)
    have hrest := ih (fun d hd => h d (List.mem_cons_of_mem _ hd)) (d :: seen)
    rw [entries, List.foldlM_append, List.singleton_append, List.foldlM_cons]
    show (d.tokens.foldlM step ⟨.array seen :: stack, .value⟩).bind _ = _
    rw [hd]
    show List.foldlM step ⟨.array (d :: seen) :: stack, .more⟩ _ = _
    rw [hrest]
    simp

/-- The name of the last member stays in the frame; which one it is makes no difference. -/
theorem foldlM_members {room : Nat} {members : List (String × Document)}
    (h : ∀ m ∈ members, Takes room m.2) (hroom : stack.length + (room + 1) ≤ maxDepth)
    (seen : List (String × Document)) (name : String) :
    ∃ name', (entries .comma [.comma] memberTokens members).foldlM step
        ⟨.object seen name true :: stack, .more⟩ =
      some ⟨.object (members.reverse ++ seen) name' true :: stack, .more⟩ := by
  induction members generalizing seen name with
  | nil => exact ⟨name, rfl⟩
  | cons m rest ih =>
    have hm := h m List.mem_cons_self (.object seen m.1 true :: stack) (by simp; omega)
    obtain ⟨name', hrest⟩ := ih (fun m hm => h m (List.mem_cons_of_mem _ hm)) (m :: seen) m.1
    refine ⟨name', ?_⟩
    rw [entries, List.foldlM_append]
    show (m.2.tokens.foldlM step ⟨.object seen m.1 true :: stack, .value⟩).bind _ = _
    rw [hm]
    show List.foldlM step ⟨.object (m :: seen) m.1 true :: stack, .more⟩ _ = _
    rw [hrest]
    simp

theorem takes_array {room : Nat} {items : List Document} (h : ∀ d ∈ items, Takes room d) :
    Takes (room + 1) (array items) := by
  intro stack hroom
  have hdeliver : deliverContainer stack (array items) = deliver stack (array items) := by
    rw [deliverContainer, if_pos (by omega)]
  rw [tokens, itemsTokens_eq]
  cases items with
  | nil => exact congrArg some hdeliver
  | cons d rest =>
    have hd := h d List.mem_cons_self (.array [] :: stack) (by simp; omega)
    have hrest := foldlM_items (fun d hd => h d (List.mem_cons_of_mem _ hd)) hroom [d]
    rw [entries, List.nil_append, List.cons_append, List.append_assoc, List.foldlM_cons]
    show List.foldlM step ⟨.array [] :: stack, .firstItem⟩ _ = _
    -- a bracket could close the array here, so the machine does not yet await just a value
    rw [foldlM_firstItem, List.foldlM_append, hd]
    show List.foldlM step ⟨.array [d] :: stack, .more⟩ _ = _
    rw [List.foldlM_append, hrest, ← hdeliver]
    show some (deliverContainer stack (array (rest.reverse ++ [d]).reverse)) = _
    simp

theorem takes_object {room : Nat} {members : List (String × Document)}
    (h : ∀ m ∈ members, Takes room m.2) : Takes (room + 1) (object members) := by
  intro stack hroom
  have hdeliver : deliverContainer stack (object members) = deliver stack (object members) := by
    rw [deliverContainer, if_pos (by omega)]
  rw [tokens, membersTokens_eq]
  cases members with
  | nil => exact congrArg some hdeliver
  | cons m rest =>
    have hm := h m List.mem_cons_self (.object [] m.1 true :: stack) (by simp; omega)
    obtain ⟨name, hrest⟩ :=
      foldlM_members (fun m hm => h m (List.mem_cons_of_mem _ hm)) hroom [m] m.1
    rw [entries, List.nil_append, List.cons_append, List.append_assoc, List.foldlM_cons]
    show (m.2.tokens ++ _).foldlM step ⟨.object [] m.1 true :: stack, .value⟩ = _
    rw [List.foldlM_append, hm]
    show List.foldlM step ⟨.object [m] m.1 true :: stack, .more⟩ _ = _
    rw [List.foldlM_append, hrest, ← hdeliver]
    show some (deliverContainer stack (object (rest.reverse ++ [m]).reverse)) = _
    simp

/-- **The tokens of a document deliver it**, wherever a value is awaited and there is room for the
containers in it. -/
theorem takes_of_fits {room : Nat} {d : Document} (h : Fits room d) : Takes room d := by
  induction h with
  | array h ih => exact takes_array ih
  | object h ih => exact takes_object ih
  | _ =>
    intro stack hroom
    rfl

end Json.Machine

namespace Document

/-- A text that spells the tokens of a document denotes it. -/
theorem ofJson?_of_spells {s : String} {d : Document} (hs : Spells s.toList d.tokens)
    (h : Fits maxDepth d) : ofJson? s = some d := by
  have htakes := Machine.takes_of_fits h [] (by simp)
  unfold ofJson?
  rw [hs.tokens?_eq]
  show (d.tokens.foldlM Machine.step ⟨[], .value⟩).bind _ = _
  rw [htakes]
  rfl

/-- **What is written on one line is read back.** -/
theorem ofJson?_toJson {d : Document} (h : Fits maxDepth d) : ofJson? d.toJson = some d :=
  ofJson?_of_spells h.spells_toJson h

/-- **What is written over several lines is read back**, with a line end behind it. -/
theorem ofJson?_toJsonLines {d : Document} (h : Fits maxDepth d) :
    ofJson? (d.toJsonLines ++ "\n") = some d := by
  apply ofJson?_of_spells _ h
  have hend : Passes ['\n'] [] := passes_blanks (by simp)
  have hall := (h.spells_toJsonAt 0).append_passes hend rfl
  simpa [toJsonLines] using hall.spells

end Document

/-! ## Blank texts -/

theorem Text.not_isBlank_of_isDigit {c : Char} (h : c.isDigit = true) : isBlank c = false := by
  have hc : c.toNat = c.val.toNat := rfl
  simp [Char.isDigit, UInt32.le_iff_toNat_le] at h
  simp [isBlank]
  omega

theorem Text.not_isBlank_of_isAlpha {c : Char} (h : c.isAlpha = true) : isBlank c = false := by
  have hc : c.toNat = c.val.toNat := rfl
  have hbounds : 'A'.val ≤ c.val ∧ c.val ≤ 'z'.val := by
    rcases Bool.or_eq_true_iff.mp h with hupper | hlower
    · obtain ⟨hle, hge⟩ := of_decide_eq_true hupper
      exact ⟨hle, UInt32.le_trans hge (by decide)⟩
    · obtain ⟨hle, hge⟩ := Bool.and_eq_true_iff.mp hlower
      exact ⟨UInt32.le_trans (by decide) (of_decide_eq_true hle), of_decide_eq_true hge⟩
  simp [UInt32.le_iff_toNat_le] at hbounds
  simp [isBlank]
  omega

namespace Json

/-- A blank starts no token: it is passed over, or it is none that may stand between tokens. -/
theorem start_of_isBlank {c : Char} (h : Text.isBlank c = true) (passed : List Token) :
    start passed c = some ⟨passed, .idle⟩ ∨ start passed c = none := by
  have hne (c' : Char) (hc' : Text.isBlank c' = false) : c ≠ c' := by
    rintro rfl
    rw [h] at hc'
    exact absurd hc' (by simp)
  have hdigit : c.isDigit = false := by
    by_contra hdigit
    rw [Text.not_isBlank_of_isDigit (by simpa using hdigit)] at h
    exact absurd h (by simp)
  have halpha : c.isAlpha = false := by
    by_contra halpha
    rw [Text.not_isBlank_of_isAlpha (by simpa using halpha)] at h
    exact absurd h (by simp)
  unfold start
  split
  · exact Or.inl rfl
  · right
    simp [hne, hdigit, halpha, Text.isBlank]

theorem tokens?_of_blank {cs : List Char} (h : ∀ c ∈ cs, Text.isBlank c = true) :
    tokens? cs = some [] ∨ tokens? cs = none := by
  have hscan : cs.foldlM Scanner.step ⟨[], .idle⟩ = some ⟨[], .idle⟩ ∨
      cs.foldlM Scanner.step ⟨[], .idle⟩ = none := by
    induction cs with
    | nil => exact Or.inl rfl
    | cons c rest ih =>
      rw [List.foldlM_cons]
      show (start [] c).bind _ = _ ∨ (start [] c).bind _ = _
      rcases start_of_isBlank (h c List.mem_cons_self) [] with hc | hc
      · rw [hc]
        exact ih fun c hc => h c (List.mem_cons_of_mem _ hc)
      · rw [hc]
        exact Or.inr rfl
  unfold tokens?
  rcases hscan with hscan | hscan
  · rw [hscan]
    exact Or.inl rfl
  · rw [hscan]
    exact Or.inr rfl

end Json

/-- A text of blanks denotes no document. -/
theorem Document.ofJson?_of_blank {s : String} (h : ∀ c ∈ s.toList, Text.isBlank c = true) :
    ofJson? s = none := by
  unfold ofJson?
  rcases Json.tokens?_of_blank h with htokens | htokens
  · rw [htokens]
    rfl
  · rw [htokens]
    rfl

/-- **What denotes a document is not blank.** -/
theorem Document.trim_ne_empty_of_ofJson? {s : String} {d : Document} (h : ofJson? s = some d) :
    Text.trim s ≠ "" := by
  intro hblank
  rw [Text.trim_eq_empty_iff, Text.trimChars_eq_nil_iff] at hblank
  rw [ofJson?_of_blank hblank] at h
  exact absurd h (by simp)

end RouterCalldata
