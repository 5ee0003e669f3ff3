import RouterCalldata.Batch

/-!
# A batch is decoded as if there were no chunks

The engine cuts a batch into chunks, numbers the failures of a chunk from zero, and moves these
numbers by what was decoded before.  Here the same result is written down without chunks: the
records of the transactions that decode, and the failures of the others with their position in
the batch.

The invariant of the loop over chunks is that the result so far is the sequential result of the
transactions so far.  A failure that ends the batch ends it for every continuation of these
transactions, so the invariant survives an early end.

## Main definitions

* `decodedRecords`, `failures`: what the transactions of a list give, one by one;
* `sequential`: the result of a batch without chunks.

## Main results

* `add_decodeChunk`: one chunk keeps the invariant;
* `runChunks_result`: a run over any list of chunks keeps it;
* `run_result_eq_sequential`: a batch gives its sequential result, whatever the chunk size.
-/

namespace RouterCalldata

/-! ## Cutting a list -/

theorem flatten_chunks {α : Type} (size : Nat) (xs : List α) : (chunks size xs).flatten = xs := by
  induction xs using chunks.induct size with
  | case1 => simp [chunks]
  | case2 x xs ih =>
    rw [chunks, List.flatten_cons, ih, List.cons_append, List.take_append_drop]

namespace Batch

variable (decode : Decode)

/-! ## Records and failures without chunks -/

/-- The records of one transaction, none if it does not decode. -/
def recordsOf (tx : RawTransaction) : List SwapRecord :=
  match decode tx with
  | .ok records => records
  | .error _ => []

/-- The records of the transactions that decode, in the order of these. -/
def decodedRecords (txs : List RawTransaction) : List SwapRecord :=
  txs.flatMap (recordsOf decode)

/-- The failure of one transaction, with its position. -/
def failureOf : RawTransaction × Nat → Option (Nat × DecodeError)
  | (tx, position) =>
      match decode tx with
      | .ok _ => none
      | .error e => some (position, e)

/-- The failures of the transactions that do not decode, the first of the
transactions standing at `position`. -/
def failuresFrom (position : Nat) (txs : List RawTransaction) : List (Nat × DecodeError) :=
  (txs.zipIdx position).filterMap (failureOf decode)

/-- The failures of the transactions that do not decode, each with its
position in the list. -/
def failures (txs : List RawTransaction) : List (Nat × DecodeError) :=
  failuresFrom decode 0 txs

/-- **The sequential result** of a batch of `total` transactions of which
`txs` have been decoded: what becomes of the failures is up to the mode. -/
def sequential (mode : ErrorMode) (total : Nat) (txs : List RawTransaction) :
    Except ItemFailed Result :=
  let records := decodedRecords decode txs
  match mode with
  | .skip =>
      .ok { records, errors := [], skipped := (failures decode txs).length, totalInput := total }
  | .collect => .ok { records, errors := failures decode txs, skipped := 0, totalInput := total }
  | .throw =>
      match failures decode txs with
      | [] => .ok { records, errors := [], skipped := 0, totalInput := total }
      | (index, source) :: _ => .error { index, source }

variable {decode}

theorem decodedRecords_append (xs ys : List RawTransaction) :
    decodedRecords decode (xs ++ ys) = decodedRecords decode xs ++ decodedRecords decode ys :=
  List.flatMap_append

/-- A failure moves with the position of its transaction. -/
theorem failuresFrom_add (position shift : Nat) (txs : List RawTransaction) :
    failuresFrom decode (shift + position) txs =
      (failuresFrom decode position txs).map fun (i, e) => (shift + i, e) := by
  induction txs generalizing position with
  | nil => rfl
  | cons tx rest ih =>
    have hrest := ih (position + 1)
    simp only [failuresFrom, List.zipIdx_cons, List.filterMap_cons, failureOf] at hrest ⊢
    rw [Nat.add_assoc, hrest]
    cases decode tx <;> rfl

theorem failures_append (xs ys : List RawTransaction) :
    failures decode (xs ++ ys) =
      failures decode xs ++ (failures decode ys).map fun (i, e) => (xs.length + i, e) := by
  unfold failures
  rw [← failuresFrom_add 0 xs.length ys]
  rw [failuresFrom, failuresFrom, failuresFrom, List.zipIdx_append, List.filterMap_append,
    Nat.zero_add, Nat.add_zero]

/-- Exactly the transactions that do not decode have a failure listed. -/
theorem mem_failures_iff {txs : List RawTransaction} {i : Nat} {e : DecodeError} :
    (i, e) ∈ failures decode txs ↔ ∃ tx, txs[i]? = some tx ∧ decode tx = .error e := by
  unfold failures failuresFrom
  rw [List.mem_filterMap]
  constructor
  · rintro ⟨⟨tx, j⟩, hmem, hfail⟩
    have hget := List.mem_zipIdx_iff_getElem?.mp hmem
    cases hdec : decode tx with
    | ok rs => simp [failureOf, hdec] at hfail
    | error e' =>
      obtain ⟨rfl, rfl⟩ : j = i ∧ e' = e := by simpa [failureOf, hdec] using hfail
      exact ⟨tx, hget, hdec⟩
  · rintro ⟨tx, hget, hdec⟩
    exact ⟨(tx, i), List.mem_zipIdx_iff_getElem?.mpr hget, by simp [failureOf, hdec]⟩

/-- Failures are listed in the order of their transactions. -/
theorem pairwise_failuresFrom (position : Nat) (txs : List RawTransaction) :
    (failuresFrom decode position txs).Pairwise (fun a b => a.1 < b.1) ∧
      ∀ a ∈ failuresFrom decode position txs, position ≤ a.1 := by
  induction txs generalizing position with
  | nil => simp [failuresFrom]
  | cons tx rest ih =>
    obtain ⟨hsorted, hbound⟩ := ih (position + 1)
    have hle : ∀ a ∈ failuresFrom decode (position + 1) rest, position ≤ a.1 := by
      intro a ha
      exact Nat.le_of_succ_le (hbound a ha)
    simp only [failuresFrom, List.zipIdx_cons, List.filterMap_cons, failureOf] at *
    cases decode tx with
    | ok rs => exact ⟨hsorted, hle⟩
    | error e =>
      refine ⟨List.pairwise_cons.mpr ⟨hbound, hsorted⟩, ?_⟩
      intro a ha
      rcases List.mem_cons.mp ha with rfl | ha
      · exact Nat.le_refl _
      · exact hle a ha

/-! ## The loop over chunks -/

theorem sortOut_zipIdx (position : Nat) (txs : List RawTransaction) :
    sortOut ((txs.map decode).zipIdx position) =
      (decodedRecords decode txs, failuresFrom decode position txs) := by
  induction txs generalizing position with
  | nil => rfl
  | cons tx rest ih =>
    simp only [List.map_cons, List.zipIdx_cons, sortOut, ih, decodedRecords, failuresFrom,
      List.flatMap_cons, List.filterMap_cons, recordsOf, failureOf]
    cases decode tx <;> rfl

/-- A chunk gives its own records and failures. -/
theorem decodeChunk_eq (chunk : List RawTransaction) :
    decodeChunk decode chunk = (decodedRecords decode chunk, failures decode chunk) :=
  sortOut_zipIdx 0 chunk

variable {mode : ErrorMode} {total : Nat}

/-- A batch that has ended stays ended, whatever transactions come after. -/
theorem sequential_append_of_error {prior : List RawTransaction} {e : ItemFailed}
    (h : sequential decode mode total prior = .error e) (rest : List RawTransaction) :
    sequential decode mode total (prior ++ rest) = .error e := by
  cases mode with
  | skip => simp [sequential] at h
  | collect => simp [sequential] at h
  | throw =>
    simp only [sequential, failures_append] at h ⊢
    cases hf : failures decode prior with
    | nil => simp [hf] at h
    | cons f fs => simpa [hf] using h

/-- **One chunk keeps the invariant**: taking a chunk up into the sequential
result of the transactions before it gives the sequential result of both. -/
theorem add_decodeChunk {prior : List RawTransaction} {r : Result}
    (h : sequential decode mode total prior = .ok r) (chunk : List RawTransaction) :
    r.add mode prior.length (decodeChunk decode chunk).1 (decodeChunk decode chunk).2 =
      sequential decode mode total (prior ++ chunk) := by
  rw [decodeChunk_eq]
  cases mode with
  | skip =>
    obtain rfl := Except.ok.inj h
    simp [sequential, Result.add, decodedRecords_append, failures_append]
  | collect =>
    obtain rfl := Except.ok.inj h
    simp [sequential, Result.add, decodedRecords_append, failures_append]
  | throw =>
    simp only [sequential] at h
    cases hp : failures decode prior with
    | cons f fs => simp [hp] at h
    | nil =>
      simp only [hp] at h
      obtain rfl := Except.ok.inj h
      cases hc : failures decode chunk with
      | nil => simp [sequential, Result.add, decodedRecords_append, failures_append, hp, hc]
      | cons f fs => simp [sequential, Result.add, failures_append, hp, hc]

/-- **A run keeps the invariant**, over any list of chunks and from any point
of the batch. -/
theorem runChunks_result {prior : List RawTransaction} {r : Result}
    (h : sequential decode mode total prior = .ok r) (rest : List (List RawTransaction)) :
    (runChunks decode mode prior.length r rest).result =
      sequential decode mode total (prior ++ rest.flatten) := by
  induction rest generalizing prior r with
  | nil => simp [runChunks, h]
  | cons chunk rest ih =>
    have hstep := add_decodeChunk h chunk
    simp only [runChunks, hstep, List.flatten_cons, ← List.append_assoc]
    cases hnext : sequential decode mode total (prior ++ chunk) with
    | error e =>
      exact (sequential_append_of_error hnext rest.flatten).symm
    | ok r' =>
      have hrest := ih hnext
      rw [List.length_append] at hrest
      exact hrest

variable (decode mode total) in
/-- Before the first transaction nothing has been recorded. -/
theorem sequential_nil : sequential decode mode total [] =
    .ok { records := [], errors := [], skipped := 0, totalInput := total } := by
  cases mode <;> rfl

theorem run_result (request : Request) :
    (run decode request).result =
      (runChunks decode request.errorMode 0
        { records := [], errors := [], skipped := 0, totalInput := request.txs.length }
        (chunks request.chunkSize request.txs)).result := by
  unfold run
  cases request.reports <;> rfl

/-- **The chunk size does not matter.**  A batch gives the sequential result of
its transactions: the records of those that decode, in order, and the failures
of the others as the mode has it, each at its position in the batch.  A failure
is listed for exactly the transactions that do not decode, in increasing order
of position, so the one that ends a batch is the first. -/
theorem run_result_eq_sequential (decode : Decode) (request : Request) :
    (run decode request).result =
        sequential decode request.errorMode request.txs.length request.txs ∧
      (∀ i e, (i, e) ∈ failures decode request.txs ↔
        ∃ tx, request.txs[i]? = some tx ∧ decode tx = .error e) ∧
      (failures decode request.txs).Pairwise (fun a b => a.1 < b.1) := by
  refine ⟨?_, fun i e => mem_failures_iff, (pairwise_failuresFrom 0 request.txs).1⟩
  have hrun := runChunks_result (sequential_nil decode request.errorMode request.txs.length)
    (chunks request.chunkSize request.txs)
  rw [flatten_chunks, List.nil_append] at hrun
  rw [run_result]
  exact hrun

end Batch

end RouterCalldata
