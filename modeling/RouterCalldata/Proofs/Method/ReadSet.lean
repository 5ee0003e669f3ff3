import RouterCalldata.Proofs.Method.Tables
import RouterCalldata.Proofs.Method.V2RoundTrip
import RouterCalldata.Proofs.Method.V3RoundTrip
import RouterCalldata.Proofs.Record.ReadSet

/-!
# What a method looks at

The signature of a method says what is told of each argument, and with that which bytes of a block
matter.  An amount matters with its whole word, an account with the low bytes of its word, and an
argument that is not told does not matter at all.  Of a path the words that lead to it matter, its
two ends and its first fee.

The layouts of the decoder are tables made by hand, and each of them looks at no more than that.  So
whatever else stands in a block, two callers that agree on what is told get the same record.

What is not told can still be looked at if an offset of a path leads to it, since such an offset may
point anywhere.  Then it is a part of the path, and counts as one.

## Main definitions

* `Parameter.told`, `Parameter.untold`: the bytes of a word that matter, and those that do not;
* `Signature.reads`: the bytes of a block that matter;
* `Method.signature`: the signature of a method of either router.

## Main results

* `Signature.told_apart_untold`: the two kinds of bytes of the words have none in common;
* `Method.span_mem_told`: a layout looks at no more of the words than its signature tells;
* `Method.decode_eq_of_agreeOn`: blocks that agree on what matters are read the same way.
-/

namespace RouterCalldata

namespace Abi

/-! ## Words -/

/-- The bytes of the word `index` that are told of an argument. -/
def Parameter.told (index : Nat) : Parameter → List Span
  | amount _ => [⟨wordSize * index, wordSize⟩]
  | lowAmount _ => [⟨wordSize * index + 22, 10⟩]
  | account _ => [⟨wordSize * index + 12, addressSize⟩]
  | path | unread _ => []

/-- The bytes of the word `index` that are not. -/
def Parameter.untold (index : Nat) : Parameter → List Span
  | amount _ | path => []
  | lowAmount _ => [⟨wordSize * index, 22⟩]
  | account _ => [⟨wordSize * index, 12⟩]
  | unread _ => [⟨wordSize * index, wordSize⟩]

theorem Parameter.within_of_mem_told {p : Parameter} {index : Nat} {span : Span}
    (h : span ∈ p.told index) :
    wordSize * index ≤ span.start ∧ span.stop ≤ wordSize * (index + 1) := by
  cases p with
  | amount field | lowAmount field | account field =>
    obtain rfl := List.mem_singleton.mp h
    simp only [Span.stop, wordSize, addressSize]
    omega
  | path | unread => exact absurd h List.not_mem_nil

theorem Parameter.within_of_mem_untold {p : Parameter} {index : Nat} {span : Span}
    (h : span ∈ p.untold index) :
    wordSize * index ≤ span.start ∧ span.stop ≤ wordSize * (index + 1) := by
  cases p with
  | lowAmount field | account field | unread type =>
    obtain rfl := List.mem_singleton.mp h
    simp only [Span.stop, wordSize]
    omega
  | amount | path => exact absurd h List.not_mem_nil

/-- What is not told of an argument stands in front of what is. -/
theorem Parameter.stop_le_of_mem {p : Parameter} {index : Nat} {span gap : Span}
    (hspan : span ∈ p.told index) (hgap : gap ∈ p.untold index) : gap.stop ≤ span.start := by
  cases p with
  | lowAmount field | account field =>
    obtain rfl := List.mem_singleton.mp hspan
    obtain rfl := List.mem_singleton.mp hgap
    exact Nat.le_refl _
  | amount | path => exact absurd hgap List.not_mem_nil
  | unread => exact absurd hspan List.not_mem_nil

namespace Signature

/-- The word of the first parameter.  In front of it a tuple may have the offset of a
path. -/
def firstWord : Signature → Nat
  | separate _ | tuple _ => 0
  | pathTuple _ _ => 1

/-- The bytes of the words that are told, from the start of the block or of the tuple. -/
def told (s : Signature) : List Span :=
  (s.parameters.zipIdx s.firstWord).flatMap fun (p, index) => p.told index

/-- The bytes of the words that are not. -/
def untold (s : Signature) : List Span :=
  (s.parameters.zipIdx s.firstWord).flatMap fun (p, index) => p.untold index

/-- **No byte is both told and not told.**  Two words have no byte in common, and neither
have the two parts of one. -/
theorem told_apart_untold (s : Signature) {span gap : Span} (hspan : span ∈ s.told)
    (hgap : gap ∈ s.untold) : span.stop ≤ gap.start ∨ gap.stop ≤ span.start := by
  obtain ⟨⟨p, i⟩, hp, hspan⟩ := List.mem_flatMap.mp hspan
  obtain ⟨⟨q, j⟩, hq, hgap⟩ := List.mem_flatMap.mp hgap
  have htold := Parameter.within_of_mem_told hspan
  have huntold := Parameter.within_of_mem_untold hgap
  simp only [wordSize] at htold huntold
  rcases Nat.lt_trichotomy i j with hlt | rfl | hgt
  · exact Or.inl (by omega)
  · have hsame : p = q := by
      obtain ⟨-, hp⟩ := List.mk_mem_zipIdx_iff_le_and_getElem?_sub.mp hp
      obtain ⟨-, hq⟩ := List.mk_mem_zipIdx_iff_le_and_getElem?_sub.mp hq
      exact Option.some.inj (hp.symm.trans hq)
    subst hsame
    exact Or.inr (Parameter.stop_le_of_mem hspan hgap)
  · exact Or.inr (by omega)

/-- Where the path of a signature is found. -/
def pathPlace : Signature → PathPlace
  | separate ps => if .path ∈ ps then .array (wordSize * ps.idxOf .path) else .nowhere
  | tuple _ => .nowhere
  | pathTuple _ _ => .tuple

/-- **The bytes of a block that matter**: what the words tell, and of a path the words that
lead to it, its ends and its first fee. -/
def reads (s : Signature) (params : Bytes) : List Span :=
  blockReads s.pathPlace s.told params

end Signature

end Abi

/-! ## Methods -/

namespace Method

/-- The signature of a method, with what it tells of each argument. -/
def signature : (m : Method) → m.headWord? = none → Abi.Signature
  | v2 m, _ => .separate m.parameters
  | v3 m, hm => m.signature hm

/-- The types of a method are those of the signature in the method table. -/
theorem info_signature_eq (m : Method) (hm : m.headWord? = none) :
    m.info.signature = m.name.decapitalize ++ (m.signature hm).types := by
  cases m with
  | v2 m =>
    show m.info.signature = m.name.decapitalize ++ ("(" ++ _ ++ ")")
    rw [m.signature_eq, String.append_assoc, String.append_assoc, String.append_assoc]
  | v3 m => exact m.info_signature_eq hm

/-- A layout finds its path where the signature has it. -/
theorem pathPlace_layout (m : Method) (hm : m.headWord? = none) :
    m.layout.pathPlace = (m.signature hm).pathPlace := by
  revert hm
  cases m with
  | v2 m => cases m <;> decide
  | v3 m => cases m <;> decide

/-- **A layout looks at no more of the words than its signature tells.** -/
theorem span_mem_told (m : Method) (hm : m.headWord? = none) :
    ∀ slot ∈ m.layout.slots, slot.2.span ∈ (m.signature hm).told := by
  revert hm
  cases m with
  | v2 m => cases m <;> decide
  | v3 m => cases m <;> decide

theorem decode_congr {m : Method} {hm : m.headWord? = none} {params params' : Bytes}
    (hlen : params'.length = params.length)
    (h : AgreeOn ((m.signature hm).reads params) params params') :
    m.decode params' = m.decode params := by
  have hspans : (m.layout.slots.map fun slot => slot.2.span) ⊆ (m.signature hm).told := by
    intro span hspan
    obtain ⟨slot, hslot, rfl⟩ := List.mem_map.mp hspan
    exact m.span_mem_told hm slot hslot
  rw [decode_eq, decode_eq]
  apply Layout.decode_congr hlen
  rw [m.pathPlace_layout hm]
  exact h.mono (blockReads_subset hspans _ _)

/-- **Blocks that agree on what matters are read the same way**, by every method that takes
no array of calls: to the same fields or to the same failure.  So no other byte
matters, and what matters of the words is apart from what is not told of them:
the deadlines, the approvals, the bounds on a price, the fee of a single pool and
the upper bytes of each account. -/
theorem decode_eq_of_agreeOn (m : Method) (hm : m.headWord? = none) :
    m.info.signature = m.name.decapitalize ++ (m.signature hm).types ∧
      (∀ params params' : Bytes, params'.length = params.length →
        AgreeOn ((m.signature hm).reads params) params params' →
          m.decode params' = m.decode params) ∧
      (∀ (params : Bytes) (position : Nat) (b : UInt8),
        (∀ span ∈ (m.signature hm).reads params, ¬ span.Contains position) →
          m.decode (params.set position b) = m.decode params) ∧
      ∀ span ∈ (m.signature hm).told, ∀ gap ∈ (m.signature hm).untold,
        span.stop ≤ gap.start ∨ gap.stop ≤ span.start := by
  refine ⟨m.info_signature_eq hm, fun params params' hlen h => decode_congr hlen h, ?_,
    fun span hspan gap hgap => (m.signature hm).told_apart_untold hspan hgap⟩
  intro params position b h
  exact decode_congr List.length_set (AgreeOn.set h params b)

/-- The block of a swap along three tokens. -/
def hopBlock (recipient deadline hop : Nat) : Bytes :=
  [1000, 990, 160, recipient, deadline, 3, 1, hop, 3].flatMap fun n => (Word.ofNat n).bytes

/-- The block of a swap through two pools, for a fixed bought amount. -/
def poolBlock (deadline hop fee padding : Nat) : Bytes :=
  ([32, 160, 42, deadline, 250, 300, 66].flatMap fun n => (Word.ofNat n).bytes) ++
    Bytes.bigEndian 20 1 ++ Bytes.bigEndian 3 500 ++ Bytes.bigEndian 20 hop ++
    Bytes.bigEndian 3 fee ++ Bytes.bigEndian 20 3 ++ Bytes.bigEndian 30 padding

/-- Another deadline, another token and another fee in the middle of the path, and other
bytes in front of an account and behind the path. -/
theorem decode_eq_of_agreeOn_hopBlock_poolBlock :
    let swap := Method.v2 .swapExactTokensForTokens
    let trade := Method.v3 .exactOutput
    let hop := hopBlock 42 1700000000 2
    let hop' := hopBlock (7 * 2 ^ 160 + 42) 0 9
    let pool := poolBlock 1700000000 2 3000 0
    let pool' := poolBlock 0 9 500 8
    swap.headWord? = none ∧ hop'.length = hop.length ∧ hop' ≠ hop ∧
      AgreeOn ((swap.signature rfl).reads hop) hop hop' ∧
      (swap.decode hop).isOk ∧ swap.decode hop' = swap.decode hop ∧
      (∀ span ∈ (swap.signature rfl).reads hop, ¬ span.Contains 159) ∧
      swap.decode (hop.set 159 1) = swap.decode hop ∧
      trade.headWord? = none ∧ pool'.length = pool.length ∧ pool' ≠ pool ∧
      AgreeOn ((trade.signature rfl).reads pool) pool pool' ∧
      (trade.decode pool).isOk ∧ trade.decode pool' = trade.decode pool := by
  intro swap trade hop hop' pool pool'
  have hhop : hop'.length = hop.length := by decide +kernel
  have hpool : pool'.length = pool.length := by decide +kernel
  have hagree : AgreeOn ((swap.signature rfl).reads hop) hop hop' := by decide +kernel
  have hagree' : AgreeOn ((trade.signature rfl).reads pool) pool pool' := by decide +kernel
  have hdeadline : ∀ span ∈ (swap.signature rfl).reads hop, ¬ span.Contains 159 := by
    decide +kernel
  exact ⟨rfl, hhop, by decide +kernel, hagree, by decide +kernel,
    (decode_eq_of_agreeOn swap rfl).2.1 hop hop' hhop hagree, hdeadline,
    (decode_eq_of_agreeOn swap rfl).2.2.1 hop 159 1 hdeadline, rfl, hpool, by decide +kernel,
    hagree', by decide +kernel, (decode_eq_of_agreeOn trade rfl).2.1 pool pool' hpool hagree'⟩

end Method

end RouterCalldata
