import Mathlib.Data.List.Basic
import RouterCalldata.Proofs.Abi.Encoding
import RouterCalldata.Record.Layout

/-!
# Reading the arguments of a signature

A signature is a list of parameters.  Each has a type and a role: its argument is reported as a
field of the record, or it is not reported at all.  The signature alone fixes where an argument
stands in the canonical encoding, and so which layout reads it: `layoutOf` is that layout, and
it gives back what the arguments report.

The proof goes along the signature.  The heads of the parameters that are left are held behind
the words that are done, each head being one word.

## Main definitions

* `Parameter`, `Arguments`: a parameter, and the arguments of a signature;
* `encoded`: the values that stand for arguments;
* `reported`: the fields that arguments report;
* `layoutOf`: the layout of a signature.

## Main results

* `value_reported_eq_none`: arguments report no fields but those of their parameters;
* `readSlots_slotsFrom`: the slots of a signature read what its words report;
* `readTokenPath_holdsAt`: the path of a signature is read from its two ends;
* `decode_layoutOf`: the layout of a signature reads back what the arguments report.
-/

namespace RouterCalldata.Abi

/-! ## Signatures -/

/-- A parameter of a method. -/
inductive Parameter
  /-- A number, reported as a field. -/
  | amount (field : Field)
  /-- A number, of which the low ten bytes are reported as a field. -/
  | lowAmount (field : Field)
  /-- An address, reported as a field. -/
  | account (field : Field)
  /-- The addresses of a swap, whose two ends are reported. -/
  | path
  /-- One word of the given type, reported nowhere. -/
  | unread (type : String)
  deriving DecidableEq, Repr

/-- The addresses of a swap, from the token sold to the token bought. -/
structure TokenPath where
  tokens : List Address
  two_le_length : 2 ≤ tokens.length

namespace TokenPath

theorem tokens_ne_nil (path : TokenPath) : path.tokens ≠ [] := by
  intro h
  have hlen := path.two_le_length
  rw [h] at hlen
  exact absurd hlen (by decide)

/-- The token sold. -/
def first (path : TokenPath) : Address := path.tokens.head path.tokens_ne_nil

/-- The token bought. -/
def last (path : TokenPath) : Address := path.tokens.getLast path.tokens_ne_nil

/-- The two ends as fields. -/
def fields (path : TokenPath) : SwapFields := .ofPath path.first.text path.last.text

end TokenPath

namespace Parameter

/-- The type as a signature spells it. -/
def type : Parameter → String
  | amount _ | lowAmount _ => "uint256"
  | account _ => "address"
  | path => "address[]"
  | unread type => type

/-- The arguments that a parameter takes.  Where an argument is not reported,
any word will do. -/
def Value : Parameter → Type
  | amount _ | lowAmount _ => Uint256
  | account _ => Address
  | path => TokenPath
  | unread _ => Word

/-- The encoded argument of a parameter. -/
def encode : (p : Parameter) → p.Value → Encoded
  | amount _, n | lowAmount _, n => uint (n : Uint256).val
  | account _, a => address a
  | path, p => array ((p : TokenPath).tokens.map address)
  | unread _, w => word w

/-- Reports the argument of a parameter of one word. -/
def report : (p : Parameter) → p.Value → SwapFields → SwapFields
  | amount field, n, fields => fields.set field (Nat.repr (n : Uint256).val)
  | lowAmount field, n, fields => fields.set field (Nat.repr ((n : Uint256).val % 2 ^ 80))
  | account field, a, fields => fields.set field (Address.text a)
  | path, _, fields | unread _, _, fields => fields

/-- The fields that a parameter reports. -/
def fields : Parameter → List Field
  | amount field | lowAmount field | account field => [field]
  | path => [.tokenPathFrom, .tokenPathTo]
  | unread _ => []

/-- The slot of a parameter that stands in the word `index` of the heads. -/
def slot (index : Nat) : Parameter → Option Slot
  | amount field => some (field, .uint index)
  | lowAmount field => some (field, .uintRange (wordSize * index + 22) 10)
  | account field => some (field, .address index)
  | path | unread _ => none

end Parameter

/-- The arguments of a signature, one for each parameter. -/
def Arguments : List Parameter → Type
  | [] => Unit
  | p :: ps => p.Value × Arguments ps

/-- The values that stand for the arguments of a signature. -/
def encoded : (ps : List Parameter) → Arguments ps → List Encoded
  | [], _ => []
  | p :: ps, (v, vs) => p.encode v :: encoded ps vs

/-- Reports the arguments of one word. -/
def reportWords : (ps : List Parameter) → Arguments ps → SwapFields → SwapFields
  | [], _, fields => fields
  | p :: ps, (v, vs), fields => reportWords ps vs (p.report v fields)

/-- Reports the ends of the path, if there is one. -/
def reportPath : (ps : List Parameter) → Arguments ps → SwapFields
  | [], _ => .empty
  | .path :: _, (path, _) => TokenPath.fields path
  | _ :: ps, (_, vs) => reportPath ps vs

/-- **What arguments report**: the ends of the path, and the words that have a
field. -/
def reported (ps : List Parameter) (args : Arguments ps) : SwapFields :=
  reportWords ps args (reportPath ps args)

theorem value_report {p : Parameter} {f : Field} (h : f ∉ p.fields) (v : p.Value)
    (fields : SwapFields) : (p.report v fields).value f = fields.value f := by
  cases p with
  | amount field | lowAmount field | account field =>
    have hne : f ≠ field := by
      intro heq
      exact h (List.mem_singleton.mpr heq)
    exact if_neg hne
  | path | unread => rfl

theorem value_reportWords {ps : List Parameter} {f : Field} (h : ∀ p ∈ ps, f ∉ p.fields)
    (args : Arguments ps) (fields : SwapFields) :
    (reportWords ps args fields).value f = fields.value f := by
  induction ps generalizing fields with
  | nil => rfl
  | cons p ps ih =>
    obtain ⟨v, vs⟩ := args
    rw [reportWords, ih (fun q hq => h q (List.mem_cons_of_mem p hq)),
      value_report (h p List.mem_cons_self)]

theorem value_reportPath {ps : List Parameter} {f : Field} (h : ∀ p ∈ ps, f ∉ p.fields)
    (args : Arguments ps) : (reportPath ps args).value f = none := by
  induction ps with
  | nil => rfl
  | cons p ps ih =>
    obtain ⟨v, vs⟩ := args
    have hp := h p List.mem_cons_self
    have hrest := ih (fun q hq => h q (List.mem_cons_of_mem p hq)) vs
    cases p with
    | path =>
      have hfrom : f ≠ .tokenPathFrom := by
        rintro rfl
        exact hp List.mem_cons_self
      have hto : f ≠ .tokenPathTo := by
        rintro rfl
        exact hp (List.mem_cons_of_mem _ List.mem_cons_self)
      show (TokenPath.fields v).value f = none
      exact (if_neg hto).trans (if_neg hfrom)
    | amount | lowAmount | account | unread => exact hrest

/-- A field that no parameter reports stays unset. -/
theorem value_reported_eq_none {ps : List Parameter} {f : Field} (h : ∀ p ∈ ps, f ∉ p.fields)
    (args : Arguments ps) : (reported ps args).value f = none := by
  rw [reported, value_reportWords h, value_reportPath h]

/-! ## The layout of a signature -/

/-- The slots of a signature whose first parameter stands in the word
`index`. -/
def slotsFrom (index : Nat) : List Parameter → List Slot
  | [] => []
  | p :: ps => (p.slot index).toList ++ slotsFrom (index + 1) ps

/-- The layout of a signature. -/
def layoutOf (ps : List Parameter) : Layout :=
  if .path ∈ ps then .tokenPath (ps.idxOf .path) (slotsFrom 0 ps) else .fixed (slotsFrom 0 ps)

/-! ## Reading the words -/

/-- Every head is one word. -/
theorem headSize_encode (p : Parameter) (v : p.Value) : (p.encode v).headSize = wordSize := by
  cases p with
  | amount field => exact headSize_word _
  | lowAmount field => exact headSize_word _
  | account field => exact headSize_word _
  | path => rfl
  | unread type => exact headSize_word v

variable {buf : Bytes}

/-- The slot of a parameter reads what its argument reports. -/
theorem readSlots_slot (hfit : buf.length < Offset.limit) (index offset : Nat) (p : Parameter)
    (v : p.Value) (fields : SwapFields)
    (h : buf.HoldsAt (wordSize * index) ((p.encode v).head offset)) :
    readSlots buf fields (p.slot index).toList = .ok (p.report v fields) := by
  have hword : wordOffset index = wordSize * index := by
    have hle := h.length_le
    exact Bytes.wordOffset_eq (by omega) hfit
  cases p with
  | amount field =>
    simp only [Parameter.slot, Option.toList_some, readSlots, Source.read]
    rw [hword, Bytes.HoldsAt.readUint h hfit]
    rfl
  | lowAmount field =>
    have hread := Bytes.HoldsAt.readUintRange (show 22 + 10 = wordSize from rfl) h hfit
    simp only [Parameter.slot, Option.toList_some, readSlots, Source.read]
    rw [hread]
    rfl
  | account field =>
    simp only [Parameter.slot, Option.toList_some, readSlots, Source.read]
    rw [hword, Bytes.HoldsAt.readAddress h hfit]
    rfl
  | path => rfl
  | unread type => rfl

theorem readSlots_append (fields : SwapFields) (first second : List Slot) :
    readSlots buf fields (first ++ second) =
      readSlots buf fields first >>= fun fields => readSlots buf fields second := by
  induction first generalizing fields with
  | nil => rfl
  | cons s rest ih =>
    obtain ⟨field, source⟩ := s
    simp only [List.cons_append, readSlots]
    cases source.read buf with
    | error e => rfl
    | ok text => exact ih (fields.set field text)

/-- **The slots of a signature read what its words report.**  The induction is
on the parameters that are left, whose heads are held behind `index` words. -/
theorem readSlots_slotsFrom (hfit : buf.length < Offset.limit) (ps : List Parameter)
    (args : Arguments ps) (index offset : Nat) (fields : SwapFields)
    (h : buf.HoldsAt (wordSize * index) (heads offset (encoded ps args))) :
    readSlots buf fields (slotsFrom index ps) = .ok (reportWords ps args fields) := by
  induction ps generalizing index offset fields with
  | nil => rfl
  | cons p ps ih =>
    obtain ⟨v, vs⟩ := args
    have hrest := h.right
    rw [Encoded.length_head, headSize_encode, ← Nat.mul_succ] at hrest
    rw [slotsFrom, readSlots_append, readSlots_slot hfit index offset p v fields h.left,
      Decoded.ok_bind]
    exact ih vs (index + 1) _ _ hrest

/-! ## Reading the path -/

theorem headsSize_map_address (tokens : List Address) :
    headsSize (tokens.map address) = wordSize * tokens.length := by
  rw [headsSize_eq_mul, List.length_map]
  intro v hv
  obtain ⟨a, -, rfl⟩ := List.mem_map.mp hv
  exact headSize_word _

/-- The last token of a path stands at the end of its words. -/
theorem holdsAt_last (path : TokenPath) :
    (components (path.tokens.map address)).HoldsAt (wordSize * (path.tokens.length - 1))
      (Word.ofAddress path.last).bytes := by
  have hmap : path.tokens.map address =
      path.tokens.dropLast.map address ++ [address path.last] := by
    have hsplit := List.dropLast_concat_getLast path.tokens_ne_nil
    rw [← List.map_singleton, ← List.map_append]
    exact congrArg (List.map address) hsplit.symm
  have hheld := holdsAt_head (path.tokens.dropLast.map address) [] (address_dynamic path.last)
  rw [headsSize_map_address, List.length_dropLast] at hheld
  rwa [hmap]

/-- The first token of a path stands at the start of its words. -/
theorem holdsAt_first (path : TokenPath) :
    (components (path.tokens.map address)).HoldsAt 0 (Word.ofAddress path.first).bytes := by
  have hsplit := List.cons_head_tail path.tokens_ne_nil
  have hheld := holdsAt_head [] (path.tokens.tail.map address) (address_dynamic path.first)
  rwa [← hsplit, List.map_cons]

/-- **The path of a signature is read from its two ends**, wherever the
signature has it. -/
theorem readTokenPath_holdsAt (hfit : buf.length < Offset.limit) {path : TokenPath}
    {index offset : Nat} (hhead : buf.HoldsAt (wordSize * index) (Word.ofNat offset).bytes)
    (htail : buf.HoldsAt offset (array (path.tokens.map address)).bytes) :
    readTokenPath buf index = .ok (path.first.text, path.last.text) := by
  have htokens := htail.right
  rw [List.length_map, (Word.ofNat path.tokens.length).length_bytes] at htokens
  have hcount := htail.left
  rw [List.length_map] at hcount
  have hfirst := htokens.trans (holdsAt_first path)
  have hlast := htokens.trans (holdsAt_last path)
  have hlen := path.two_le_length
  have hend : offset + 32 + 32 * (path.tokens.length - 1) + 32 ≤ buf.length := by
    have hle := hlast.length_le
    rwa [(Word.ofAddress path.last).length_bytes] at hle
  have hlastAt : offset + 32 + 32 * (path.tokens.length - 1) =
      offset + path.tokens.length * 32 := by
    omega
  have hslot : wordOffset index = wordSize * index :=
    Bytes.wordOffset_eq (Nat.le_trans (Nat.le_add_right ..) hhead.length_le) hfit
  have hadd : Offset.checkedAdd offset 32 = some (offset + 32) := if_pos (by omega)
  have hmul : Offset.checkedMul path.tokens.length 32 = some (path.tokens.length * 32) :=
    if_pos (by omega)
  have hadd' : Offset.checkedAdd offset (path.tokens.length * 32) =
      some (offset + path.tokens.length * 32) := if_pos (by omega)
  rw [hlastAt] at hlast
  rw [readTokenPath, hslot, hhead.readOffset (by omega) hfit, Decoded.ok_bind,
    hcount.readOffset (by omega) hfit, Decoded.ok_bind]
  simp only [if_neg (Nat.not_lt.mpr hlen), hadd, hmul, hadd', Option.bind_some]
  rw [hfirst.readAddress hfit, hlast.readAddress hfit]
  rfl

theorem reportPath_cons_of_ne {p : Parameter} (hp : p ≠ .path) (ps : List Parameter)
    (v : p.Value) (vs : Arguments ps) : reportPath (p :: ps) (v, vs) = reportPath ps vs := by
  cases p with
  | path => exact absurd rfl hp
  | amount | lowAmount | account | unread => rfl

theorem reportPath_eq_empty {ps : List Parameter} (h : .path ∉ ps) (args : Arguments ps) :
    reportPath ps args = .empty := by
  induction ps with
  | nil => rfl
  | cons p ps ih =>
    obtain ⟨v, vs⟩ := args
    have hp : p ≠ .path := by
      rintro rfl
      exact h List.mem_cons_self
    rw [reportPath_cons_of_ne hp]
    exact ih (fun hmem => h (List.mem_cons_of_mem p hmem)) vs

/-- The path stands among the encoded arguments where it stands in the
signature. -/
theorem exists_encoded_eq_append {ps : List Parameter} (h : .path ∈ ps) (args : Arguments ps) :
    ∃ (xs ys : List Encoded) (path : TokenPath),
      encoded ps args = xs ++ array (path.tokens.map address) :: ys ∧
      headsSize xs = wordSize * ps.idxOf .path ∧ reportPath ps args = path.fields := by
  induction ps with
  | nil => exact absurd h List.not_mem_nil
  | cons p ps ih =>
    obtain ⟨v, vs⟩ := args
    by_cases hp : p = .path
    · -- the path comes first
      subst hp
      refine ⟨[], encoded ps vs, v, rfl, ?_, rfl⟩
      rw [List.idxOf_cons_self]
      rfl
    · -- the path comes later, and `p` takes up one word in front of it
      have hmem : .path ∈ ps := (List.mem_cons.mp h).resolve_left (Ne.symm hp)
      obtain ⟨xs, ys, path, hxs, hsize, hreport⟩ := ih hmem vs
      refine ⟨p.encode v :: xs, ys, path, ?_, ?_, ?_⟩
      · rw [encoded, hxs, List.cons_append]
      · rw [List.idxOf_cons_ne ps hp, Nat.mul_succ, ← hsize, Nat.add_comm, headsSize,
          headSize_encode]
      · rw [reportPath_cons_of_ne hp, hreport]

/-- **The layout of a signature reads back what the arguments report**, for
every list of parameters and every argument. -/
theorem decode_layoutOf (ps : List Parameter) (args : Arguments ps) (name : String)
    (hfit : (components (encoded ps args)).length < Offset.limit) :
    (layoutOf ps).decode name (components (encoded ps args)) = .ok (reported ps args) := by
  have hheads : (components (encoded ps args)).HoldsAt (wordSize * 0)
      (heads (headsSize (encoded ps args)) (encoded ps args)) := .start _ _
  by_cases h : .path ∈ ps
  · obtain ⟨xs, ys, path, hxs, hsize, hreport⟩ := exists_encoded_eq_append h args
    have hhead := holdsAt_offset xs ys (array_dynamic (path.tokens.map address))
    have htail := holdsAt_tail xs ys (array_dynamic (path.tokens.map address))
    rw [← hxs] at hhead htail
    rw [hsize] at hhead
    rw [layoutOf, if_pos h, Layout.decode, readTokenPath_holdsAt hfit hhead htail, Decoded.ok_bind,
      reported, hreport]
    exact readSlots_slotsFrom hfit ps args 0 _ path.fields hheads
  · rw [layoutOf, if_neg h, Layout.decode, reported, reportPath_eq_empty h]
    exact readSlots_slotsFrom hfit ps args 0 _ .empty hheads

end RouterCalldata.Abi
