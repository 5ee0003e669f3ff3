import Mathlib.Algebra.Order.Floor.Div
import RouterCalldata.Proofs.Batch.Sequential

/-!
# What is reported of a batch

A report follows each chunk that is taken up, and tells how many transactions have been decoded and
how many there are.  The chunk that ends a batch is not taken up, so that nothing is reported of it.
A transaction that has failed is therefore in no count, unless the mode lets the batch go on.

A run over any list of chunks reports the stops of these chunks: all of them where it succeeds, and
where it fails those that are not behind the transaction that failed.  That chunks have one size
matters only for where their stops are.

## Main definitions

* `stops`: where consecutive chunks end.

## Main results

* `runChunks_cons_ok`, `runChunks_cons_error`: one chunk;
* `progress_of_ok`, `progress_of_error`: a run over any list of chunks;
* `stops_chunks`: the stops of chunks of one size;
* `progress_run`: the reports of a batch.
-/

namespace RouterCalldata

/-! ## Where chunks end -/

/-- Where consecutive chunks end, the first of which starts at `start`. -/
def stops {α : Type} (start : Nat) : List (List α) → List Nat
  | [] => []
  | chunk :: rest => (start + chunk.length) :: stops (start + chunk.length) rest

section Stops

variable {α : Type} {size total : Nat}

/-- What is left after a chunk has one chunk less. -/
theorem ceilDiv_eq_succ (hsize : 0 < size) (htotal : 0 < total) :
    total ⌈/⌉ size = (total - size) ⌈/⌉ size + 1 := by
  rw [Nat.ceilDiv_eq_add_pred_div, Nat.ceilDiv_eq_add_pred_div]
  rcases Nat.lt_or_ge total size with hlt | hge
  · have hrest : total - size + size - 1 = size - 1 := by omega
    rw [hrest, Nat.div_eq_of_lt (by omega : size - 1 < size)]
    exact Nat.div_eq_of_lt_le (by omega) (by omega)
  · have hrest : total + size - 1 = total - size + size - 1 + size := by omega
    rw [hrest, Nat.add_div_right _ hsize]

/-- **Chunks of one size** end at its multiples, except for the last one, which ends where the list
does.  A size of zero counts as one. -/
theorem stops_chunks (size start : Nat) (xs : List α) :
    stops start (chunks size xs) =
      (List.range (xs.length ⌈/⌉ max size 1)).map fun k =>
        start + min ((k + 1) * max size 1) xs.length := by
  induction xs using chunks.induct size generalizing start with
  | case1 => rw [chunks, List.length_nil, zero_ceilDiv]; rfl
  | case2 x xs ih =>
    have hchunk : (x :: xs.take (size - 1)).length = min (max size 1) (x :: xs).length := by
      rw [List.length_cons, List.length_take, List.length_cons]
      omega
    have hrest : (xs.drop (size - 1)).length = (x :: xs).length - max size 1 := by
      rw [List.length_drop, List.length_cons]
      omega
    rw [chunks, stops, ih, hchunk, hrest,
      ceilDiv_eq_succ (by omega) (by rw [List.length_cons]; omega : 0 < (x :: xs).length),
      List.range_succ_eq_map, List.map_cons, List.map_map, Nat.zero_add, Nat.one_mul]
    congr 1
    apply List.map_congr_left
    intro k _
    have hstep : (k + 1 + 1) * max size 1 = (k + 1) * max size 1 + max size 1 := Nat.succ_mul _ _
    simp only [Function.comp_apply, Nat.succ_eq_add_one, hstep]
    generalize (k + 1) * max size 1 = before
    omega

theorem takeWhile_range {p : Nat → Bool} {m n : Nat} (hmn : m ≤ n) (hp : ∀ k, p k ↔ k < m) :
    (List.range n).takeWhile p = List.range m := by
  obtain ⟨rest, rfl⟩ := Nat.exists_eq_add_of_le hmn
  rw [List.range_add, List.takeWhile_append_of_pos fun k hk => (hp k).mpr (List.mem_range.mp hk)]
  cases rest with
  | zero => exact List.append_nil _
  | succ rest =>
    have hfirst : ¬ p (m + 0) := fun h => Nat.lt_irrefl m ((hp _).mp h)
    rw [List.range_succ_eq_map, List.map_cons, List.takeWhile_cons_of_neg hfirst, List.append_nil]

/-- The stops that are not behind a position inside of the list are the multiples of the size up
to it. -/
theorem takeWhile_stops_chunks {index : Nat} {xs : List α} (hindex : index < xs.length) :
    (stops 0 (chunks size xs)).takeWhile (· ≤ index) =
      (List.range (index / max size 1)).map fun k => (k + 1) * max size 1 := by
  have hsize : 0 < max size 1 := by omega
  have hmultiple (k : Nat) : (k + 1) * max size 1 ≤ index ↔ k < index / max size 1 := by
    rw [← Nat.le_div_iff_mul_le hsize, Nat.succ_le_iff]
  have hstop (k : Nat) : 0 + min ((k + 1) * max size 1) xs.length ≤ index ↔
      k < index / max size 1 := by
    rw [← hmultiple]
    generalize (k + 1) * max size 1 = stop
    omega
  have hcount : index / max size 1 ≤ xs.length ⌈/⌉ max size 1 := by
    have hround : xs.length ⌊/⌋ max size 1 ≤ xs.length ⌈/⌉ max size 1 := floorDiv_le_ceilDiv
    rw [Nat.floorDiv_eq_div] at hround
    exact Nat.le_trans (Nat.div_le_div_right (Nat.le_of_lt hindex)) hround
  rw [stops_chunks, List.takeWhile_map, takeWhile_range hcount (by simpa using hstop)]
  apply List.map_congr_left
  intro k hk
  have hle := (hmultiple k).mpr (List.mem_range.mp hk)
  generalize (k + 1) * max size 1 = stop at hle ⊢
  omega

end Stops

namespace Batch

variable {decode : Decode} {mode : ErrorMode} {done : Nat} {r r' result : Result}
  {e : ItemFailed} {chunk : List RawTransaction}

/-! ## One chunk -/

theorem totalInput_of_add {records : List SwapRecord} {errors : List (Nat × DecodeError)}
    (h : r.add mode done records errors = .ok r') : r'.totalInput = r.totalInput := by
  cases mode with
  | skip => obtain rfl := Except.ok.inj h; rfl
  | collect => obtain rfl := Except.ok.inj h; rfl
  | throw =>
    cases errors with
    | nil => obtain rfl := Except.ok.inj h; rfl
    | cons error rest => cases h

/-- Only a transaction of the chunk ends the batch in it. -/
theorem index_of_add_decodeChunk
    (h : r.add mode done (decodeChunk decode chunk).1 (decodeChunk decode chunk).2 = .error e) :
    mode = .throw ∧ done ≤ e.index ∧ e.index < done + chunk.length := by
  rw [decodeChunk_eq] at h
  cases mode with
  | skip => cases h
  | collect => cases h
  | throw =>
    cases hfailures : failures decode chunk with
    | nil =>
      rw [hfailures] at h
      cases h
    | cons failure rest =>
      rw [hfailures] at h
      obtain rfl := Except.error.inj h
      have hmem : failure ∈ failures decode chunk := by
        rw [hfailures]
        exact List.mem_cons_self
      obtain ⟨tx, htx, -⟩ := mem_failures_iff.mp hmem
      have hlt := (List.getElem?_eq_some_iff.mp htx).1
      exact ⟨rfl, Nat.le_add_right _ _, Nat.add_lt_add_left hlt done⟩

/-- A chunk that ends the batch is not reported. -/
theorem runChunks_cons_error
    (h : r.add mode done (decodeChunk decode chunk).1 (decodeChunk decode chunk).2 = .error e)
    (rest : List (List RawTransaction)) :
    runChunks decode mode done r (chunk :: rest) = { progress := [], result := .error e } := by
  simp only [runChunks, h]

/-- **A chunk that is taken up is reported**, and the run goes on behind it. -/
theorem runChunks_cons_ok
    (h : r.add mode done (decodeChunk decode chunk).1 (decodeChunk decode chunk).2 = .ok r')
    (rest : List (List RawTransaction)) :
    runChunks decode mode done r (chunk :: rest) =
      { runChunks decode mode (done + chunk.length) r' rest with
        progress := (done + chunk.length, r.totalInput) ::
          (runChunks decode mode (done + chunk.length) r' rest).progress } := by
  rw [← totalInput_of_add h]
  simp only [runChunks, h]

/-! ## A run -/

/-- **A run that succeeds reports the stops of all chunks.** -/
theorem progress_of_ok {rest : List (List RawTransaction)}
    (h : (runChunks decode mode done r rest).result = .ok result) :
    (runChunks decode mode done r rest).progress =
      (stops done rest).map fun stop => (stop, r.totalInput) := by
  induction rest generalizing done r with
  | nil => rfl
  | cons chunk rest ih =>
    cases hadd : r.add mode done (decodeChunk decode chunk).1 (decodeChunk decode chunk).2 with
    | error e =>
      rw [runChunks_cons_error hadd] at h
      cases h
    | ok r' =>
      rw [runChunks_cons_ok hadd] at h ⊢
      dsimp only at h ⊢
      rw [ih h, stops, List.map_cons, totalInput_of_add hadd]

/-- **A run that fails reports the stops that are not behind the transaction that failed**,
which is one of those that were to be decoded. -/
theorem progress_of_error {rest : List (List RawTransaction)}
    (h : (runChunks decode mode done r rest).result = .error e) :
    (mode = .throw ∧ done ≤ e.index ∧ e.index < done + rest.flatten.length) ∧
      (runChunks decode mode done r rest).progress =
        ((stops done rest).takeWhile (· ≤ e.index)).map fun stop => (stop, r.totalInput) := by
  induction rest generalizing done r with
  | nil => cases h
  | cons chunk rest ih =>
    rw [List.flatten_cons, List.length_append, stops]
    cases hadd : r.add mode done (decodeChunk decode chunk).1 (decodeChunk decode chunk).2 with
    | error e' =>
      rw [runChunks_cons_error hadd] at h ⊢
      obtain rfl : e' = e := Except.error.inj h
      obtain ⟨hmode, hle, hlt⟩ := index_of_add_decodeChunk hadd
      refine ⟨⟨hmode, hle, by omega⟩, ?_⟩
      rw [List.takeWhile_cons_of_neg (by simpa using hlt)]
      rfl
    | ok r' =>
      rw [runChunks_cons_ok hadd] at h ⊢
      dsimp only at h ⊢
      obtain ⟨⟨hmode, hle, hlt⟩, hprogress⟩ := ih h
      refine ⟨⟨hmode, by omega, by omega⟩, ?_⟩
      rw [hprogress, List.takeWhile_cons_of_pos (by simpa using hle), List.map_cons,
        totalInput_of_add hadd]

/-! ## A batch -/

variable {request : Request}

theorem run_progress (hreports : request.reports = true) :
    (run decode request).progress =
      (runChunks decode request.errorMode 0
        { records := [], errors := [], skipped := 0, totalInput := request.txs.length }
        (chunks request.chunkSize request.txs)).progress := by
  unfold run
  rw [hreports]
  rfl

/-- The reports of a batch that succeeds. -/
def fullReports (total size : Nat) : List (Nat × Nat) :=
  (List.range (total ⌈/⌉ size)).map fun k => (min ((k + 1) * size) total, total)

/-- A count that is not the last one is a multiple of the size, and less than the total. -/
theorem pairwise_fullReports {total size : Nat} (hsize : 0 < size) :
    (fullReports total size).Pairwise fun a b => a.1 < b.1 := by
  rw [fullReports, List.pairwise_map]
  refine List.pairwise_lt_range.imp_of_mem fun {k k'} _ hk' hlt => ?_
  have hinside : size * k' < total := by
    by_contra hle
    have hcount := (ceilDiv_le_iff_le_mul hsize).mpr (Nat.not_lt.mp hle)
    exact Nat.not_lt.mpr hcount (List.mem_range.mp hk')
  have hstep : (k + 1) * size ≤ size * k' := by
    rw [Nat.mul_comm]
    exact Nat.mul_le_mul_left size hlt
  have hnext : (k' + 1) * size = size * k' + size := by
    rw [Nat.mul_comm, Nat.mul_succ]
  rw [hnext]
  generalize (k + 1) * size = stop at hstep ⊢
  generalize size * k' = stop' at hinside hstep ⊢
  dsimp only
  omega

theorem getLast?_fullReports {total size : Nat} (hsize : 0 < size) :
    (fullReports total size).getLast? = if total = 0 then none else some (total, total) := by
  cases hcount : total ⌈/⌉ size with
  | zero =>
    have hzero := (ceilDiv_le_iff_le_mul hsize).mp (Nat.le_of_eq hcount)
    rw [Nat.mul_zero, Nat.le_zero] at hzero
    rw [fullReports, hcount, if_pos hzero]
    rfl
  | succ count =>
    have hcovered := (ceilDiv_le_iff_le_mul hsize).mp (Nat.le_of_eq hcount)
    have hne : total ≠ 0 := by
      rintro rfl
      rw [zero_ceilDiv] at hcount
      cases hcount
    rw [Nat.mul_comm] at hcovered
    rw [fullReports, hcount, if_neg hne, List.range_succ, List.map_append, List.map_singleton,
      List.getLast?_concat, Nat.min_eq_right hcovered]

theorem progress_of_run_eq_ok (hreports : request.reports = true)
    (h : (run decode request).result = .ok result) :
    (run decode request).progress =
      fullReports request.txs.length (max request.chunkSize 1) := by
  rw [run_result] at h
  rw [run_progress hreports, progress_of_ok h, stops_chunks, List.map_map, fullReports]
  simp only [Function.comp_def, Nat.zero_add]

theorem progress_of_run_eq_error (hreports : request.reports = true)
    (h : (run decode request).result = .error e) :
    request.errorMode = .throw ∧
      (run decode request).progress =
        (List.range (e.index / max request.chunkSize 1)).map fun k =>
          ((k + 1) * max request.chunkSize 1, request.txs.length) := by
  rw [run_result] at h
  obtain ⟨⟨hmode, -, hlt⟩, hprogress⟩ := progress_of_error h
  rw [flatten_chunks, Nat.zero_add] at hlt
  rw [run_progress hreports, hprogress, takeWhile_stops_chunks hlt, List.map_map]
  exact ⟨hmode, rfl⟩

/-- A failure ends a batch in one mode only. -/
theorem exists_run_eq_ok (hreports : request.reports = true) (hmode : request.errorMode ≠ .throw)
    (decode : Decode) : ∃ result, (run decode request).result = .ok result := by
  cases h : (run decode request).result with
  | ok result => exact ⟨result, rfl⟩
  | error e => exact absurd (progress_of_run_eq_error hreports h).1 hmode

/-- **What is reported of a batch.**  If it succeeds, a report follows each chunk, with ever greater
counts and the total at the end; of no transactions there is no report.  If it fails, the reports
are those of the chunks in front of the one with the transaction that failed, so none of them
counts it.  Where no failure ends the batch, the reports are the same whatever the transactions
decode to. -/
theorem progress_run (decode : Decode) (request : Request) (hreports : request.reports = true) :
    (∀ result, (run decode request).result = .ok result →
      (run decode request).progress =
          fullReports request.txs.length (max request.chunkSize 1) ∧
        (run decode request).progress.Pairwise (fun a b => a.1 < b.1) ∧
        (run decode request).progress.getLast? =
          if request.txs.length = 0 then none
          else some (request.txs.length, request.txs.length)) ∧
    (∀ e, (run decode request).result = .error e →
      (run decode request).progress =
          (List.range (e.index / max request.chunkSize 1)).map (fun k =>
            ((k + 1) * max request.chunkSize 1, request.txs.length)) ∧
        ∀ report ∈ (run decode request).progress, report.1 ≤ e.index) ∧
    (request.errorMode ≠ .throw →
      ∀ decode' : Decode, (run decode' request).progress = (run decode request).progress) := by
  have hsize : 0 < max request.chunkSize 1 := by omega
  refine ⟨?_, ?_, ?_⟩
  · intro result h
    rw [progress_of_run_eq_ok hreports h]
    exact ⟨rfl, pairwise_fullReports hsize, getLast?_fullReports hsize⟩
  · intro e h
    have hprogress := (progress_of_run_eq_error hreports h).2
    refine ⟨hprogress, ?_⟩
    intro report hreport
    rw [hprogress] at hreport
    obtain ⟨k, hk, rfl⟩ := List.mem_map.mp hreport
    exact (Nat.le_div_iff_mul_le hsize).mp (List.mem_range.mp hk)
  · intro hmode decode'
    obtain ⟨result, h⟩ := exists_run_eq_ok hreports hmode decode
    obtain ⟨result', h'⟩ := exists_run_eq_ok hreports hmode decode'
    rw [progress_of_run_eq_ok hreports h, progress_of_run_eq_ok hreports h']

/-- A decoder that refuses empty calldata and has no records of any other. -/
def refuseEmpty : Decode := fun tx =>
  if tx.calldata = [] then .error (.truncated 0 4 0) else .ok []

/-- Five transactions in chunks of two, the fourth of the given calldata and the only one that may
fail. -/
def fiveCalls (fourth : Bytes) : Request :=
  { txs := [[1], [2], [3], fourth, [5]].map fun calldata =>
      { calldata, version := .v3, metadata := .ofCall "hash" "router" }
    chunkSize := 2, errorMode := .throw, reports := true }

/-- If the fourth transaction fails, one chunk has been taken up, and otherwise all three are, the
last of which is short. -/
theorem progress_run_fourthFails :
    (fiveCalls []).reports = true ∧
      (run refuseEmpty (fiveCalls [])).result =
        .error { index := 3, source := .truncated 0 4 0 } ∧
      (run refuseEmpty (fiveCalls [])).progress = [(2, 5)] ∧
      (∃ result, (run refuseEmpty (fiveCalls [4])).result = .ok result) ∧
      (run refuseEmpty (fiveCalls [4])).progress = [(2, 5), (4, 5), (5, 5)] := by
  have hfail : (run refuseEmpty (fiveCalls [])).result =
      .error { index := 3, source := .truncated 0 4 0 } := by
    decide +kernel
  have hisOk : (run refuseEmpty (fiveCalls [4])).result.isOk = true := by decide +kernel
  refine ⟨rfl, hfail, ((progress_run refuseEmpty _ rfl).2.1 _ hfail).1, ?_⟩
  cases h : (run refuseEmpty (fiveCalls [4])).result with
  | error e =>
    rw [h] at hisOk
    cases hisOk
  | ok result => exact ⟨⟨result, rfl⟩, ((progress_run refuseEmpty _ rfl).1 result h).1⟩

end Batch

end RouterCalldata
