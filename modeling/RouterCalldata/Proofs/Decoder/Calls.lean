import RouterCalldata.Decoder
import RouterCalldata.Proofs.Bytes.Holding
import RouterCalldata.Proofs.Method.Tables

/-!
# One call at a time

Calldata is a selector and a parameter block, or it is too short to hold a selector.  What the
decoder does with a call depends on the kind of the call alone, and there is one equation for
each: a plain call is read, a multicall within the limit is split and its calls are decoded one
level further in, and a multicall beyond the limit is refused.

## Main definitions

* `IsMulticall`: the calldata that the decoder takes for a multicall.

## Main results

* `Call.read_multicall`, `Call.read_plain`, `Call.of_read`: the two kinds of call;
* `Call.of_read_eq_error`: what is no call;
* `decodeAtDepth_plain`, `decodeAtDepth_multicall`, `decodeAtDepth_refused`: one equation for each
  kind;
* `decode_selector_append_eq_map`, `decode_selector_append`: a plain call of a known method;
* `decodeAtDepth_induction`: what holds of plain calls and is kept by multicalls;
* `decodeAtDepth_error_induction`: where a failure comes from;
* `decodeAtDepth_of_not_isMulticall`: only multicalls depend on the depth.
-/

namespace RouterCalldata

namespace Bytes

variable (s : Selector) (params : Bytes)

theorem readSelector_append : readSelector (s.toBytes ++ params) = .ok s := by
  have hle : 0 + 4 ≤ (s.toBytes ++ params).length :=
    HoldsAt.length_le (.start s.toBytes params)
  have hcut : slice (s.toBytes ++ params) 0 4 = .ok s.toBytes := by
    rw [slice, Offset.checkedAdd, if_pos (by decide)]
    exact if_pos hle
  rw [readSelector, hcut, Decoded.ok_bind, Selector.ofBytes?_toBytes]
  rfl

theorem window_append :
    window (s.toBytes ++ params) 4 (s.toBytes ++ params).length = .ok params := by
  have hlen : (s.toBytes ++ params).length = 4 + params.length := List.length_append
  have hdrop : (s.toBytes ++ params).drop 4 = params := rfl
  rw [window, if_pos ⟨by omega, Nat.le_refl _⟩, hlen, Nat.add_sub_cancel_left, hdrop,
    List.take_length]

/-- Calldata of at least four bytes is a selector and a parameter block. -/
theorem exists_eq_selector_append {calldata : Bytes} (h : 4 ≤ calldata.length) :
    ∃ (s : Selector) (params : Bytes), calldata = s.toBytes ++ params := by
  rcases calldata with _ | ⟨b0, _ | ⟨b1, _ | ⟨b2, _ | ⟨b3, params⟩⟩⟩⟩
  iterate 4 simp at h
  exact ⟨⟨b0, b1, b2, b3⟩, params, rfl⟩

end Bytes

/-- The calldata is that of a multicall, going by its first four bytes. -/
def IsMulticall (calldata : Bytes) : Prop :=
  calldata.take 4 = [0xac, 0x96, 0x50, 0xd8] ∨ calldata.take 4 = [0x5a, 0xe4, 0x01, 0xdc]

instance (calldata : Bytes) : Decidable (IsMulticall calldata) :=
  inferInstanceAs (Decidable (calldata.take 4 = _ ∨ calldata.take 4 = _))

/-- A multicall is the selector of a method with an array of calls, and a
parameter block. -/
theorem IsMulticall.exists_eq {calldata : Bytes} (h : IsMulticall calldata) :
    ∃ (s : Selector) (m : V3Method) (headWord : Nat) (params : Bytes),
      calldata = s.toBytes ++ params ∧ Multicall.ofSelector? s = some (m, headWord) := by
  have hsplit := List.take_append_drop 4 calldata
  rcases h with h | h
  · rw [h] at hsplit
    exact ⟨V3Method.multicall.selector, .multicall, 0, calldata.drop 4, hsplit.symm, rfl⟩
  · rw [h] at hsplit
    exact ⟨V3Method.multicallWithValue.selector, .multicallWithValue, 1, calldata.drop 4,
      hsplit.symm, rfl⟩

/-- Behind any other selector there is no array of calls. -/
theorem ofSelector?_eq_none {s : Selector} {params : Bytes}
    (h : ¬ IsMulticall (s.toBytes ++ params)) : Multicall.ofSelector? s = none := by
  cases hs : Multicall.ofSelector? s with
  | none => rfl
  | some found =>
    obtain ⟨m, headWord⟩ := found
    obtain ⟨rfl, hword⟩ := Multicall.ofSelector?_eq_some_iff.mp hs
    cases m with
    | multicall => exact absurd (Or.inl rfl) h
    | multicallWithValue => exact absurd (Or.inr rfl) h
    | _ => exact absurd hword nofun

theorem isMulticall_of_ofSelector? {s : Selector} {found : V3Method × Nat}
    (h : Multicall.ofSelector? s = some found) (params : Bytes) :
    IsMulticall (s.toBytes ++ params) := by
  by_contra hnot
  exact absurd ((ofSelector?_eq_none hnot).symm.trans h) nofun

theorem IsMulticall.append {calldata : Bytes} (h : IsMulticall calldata) (more : Bytes) :
    IsMulticall (calldata ++ more) := by
  obtain ⟨s, m, headWord, params, rfl, hs⟩ := h.exists_eq
  rw [List.append_assoc]
  exact isMulticall_of_ofSelector? hs (params ++ more)

namespace Call

variable {s : Selector} {version : Version} {params : Bytes}

theorem read_multicall {m : V3Method} {headWord : Nat}
    (h : Multicall.ofSelector? s = some (m, headWord)) :
    read version (s.toBytes ++ params) = .ok (.multicall m headWord params) := by
  rw [read, Bytes.readSelector_append, Decoded.ok_bind, Bytes.window_append, Decoded.ok_bind, h]
  rfl

theorem read_plain (h : Multicall.ofSelector? s = none) :
    read version (s.toBytes ++ params) =
      Method.resolve version s >>= fun m => .ok (.plain m params) := by
  rw [read, Bytes.readSelector_append, Decoded.ok_bind, Bytes.window_append, Decoded.ok_bind, h]
  rfl

theorem exists_read_of_isMulticall {calldata : Bytes} (version : Version)
    (h : IsMulticall calldata) :
    ∃ m headWord params, calldata.length = 4 + params.length ∧
      read version calldata = .ok (.multicall m headWord params) := by
  obtain ⟨s, m, headWord, params, rfl, hs⟩ := h.exists_eq
  exact ⟨m, headWord, params, List.length_append, read_multicall hs⟩

/-- Calldata of less than four bytes has no selector. -/
theorem read_of_length_lt {calldata : Bytes} (version : Version) (h : calldata.length < 4) :
    read version calldata = .error (.truncated 0 4 calldata.length) := by
  have hcut : Bytes.slice calldata 0 4 = .error (.truncated 0 4 calldata.length) := by
    rw [Bytes.slice, Offset.checkedAdd, if_pos (by decide)]
    exact if_neg (Nat.not_le.mpr h)
  rw [read, Bytes.readSelector, hcut, Decoded.error_bind, Decoded.error_bind]

/-- **A call that is read** is a selector and a parameter block: the selector of a
multicall, or that of a method of the version. -/
theorem of_read {calldata : Bytes} {call : Call} (h : read version calldata = .ok call) :
    ∃ s params, calldata = s.toBytes ++ params ∧
      ((∃ m headWord, Multicall.ofSelector? s = some (m, headWord) ∧
          call = .multicall m headWord params) ∨
        ∃ m, Multicall.ofSelector? s = none ∧ Method.resolve version s = .ok m ∧
          call = .plain m params) := by
  rcases Nat.lt_or_ge calldata.length 4 with hshort | hlong
  · rw [read_of_length_lt version hshort] at h
    exact absurd h nofun
  · obtain ⟨s, params, rfl⟩ := Bytes.exists_eq_selector_append hlong
    refine ⟨s, params, rfl, ?_⟩
    cases hs : Multicall.ofSelector? s with
    | none =>
      rw [read_plain hs] at h
      obtain ⟨m, hm, h⟩ := Decoded.bind_eq_ok_iff.mp h
      exact Or.inr ⟨m, rfl, hm, (Except.ok.inj h).symm⟩
    | some found =>
      obtain ⟨m, headWord⟩ := found
      rw [read_multicall hs] at h
      exact Or.inl ⟨m, headWord, rfl, (Except.ok.inj h).symm⟩

/-- A call that cannot be read is too short for a selector, or its selector is
neither that of a multicall nor in the table of the version. -/
theorem of_read_eq_error {calldata : Bytes} {e : DecodeError}
    (h : read version calldata = .error e) :
    e = .truncated 0 4 calldata.length ∨
      ∃ s params, calldata = s.toBytes ++ params ∧ Multicall.ofSelector? s = none ∧
        e = .unknownSelector s version := by
  rcases Nat.lt_or_ge calldata.length 4 with hshort | hlong
  · rw [read_of_length_lt version hshort] at h
    exact Or.inl (Except.error.inj h).symm
  · obtain ⟨s, params, rfl⟩ := Bytes.exists_eq_selector_append hlong
    refine Or.inr ⟨s, params, rfl, ?_⟩
    cases hs : Multicall.ofSelector? s with
    | none =>
      rw [read_plain hs] at h
      cases hm : Method.resolve version s with
      | error e' =>
        rw [hm, Decoded.error_bind] at h
        obtain rfl := Except.error.inj h
        exact ⟨rfl, Method.eq_of_resolve_eq_error hm⟩
      | ok m =>
        rw [hm] at h
        exact absurd h nofun
    | some found =>
      obtain ⟨m, headWord⟩ := found
      rw [read_multicall hs] at h
      exact absurd h nofun

/-- A multicall is the selector of a method that takes an array of calls, and a
block. -/
theorem of_read_multicall {calldata : Bytes} {m : V3Method} {headWord : Nat}
    (h : read version calldata = .ok (.multicall m headWord params)) :
    calldata = m.selector.toBytes ++ params ∧ m.headWord? = some headWord := by
  obtain ⟨s, params', rfl, ⟨m', headWord', hs, hcall⟩ | ⟨m', -, -, hcall⟩⟩ := of_read h
  · cases hcall
    obtain ⟨rfl, hword⟩ := Multicall.ofSelector?_eq_some_iff.mp hs
    exact ⟨rfl, hword⟩
  · exact absurd hcall nofun

/-- A plain call is the selector of a method of the version that takes no array of
calls, and a block. -/
theorem of_read_plain {calldata : Bytes} {m : Method}
    (h : read version calldata = .ok (.plain m params)) :
    calldata = m.selector.toBytes ++ params ∧ m.version = version ∧ m.headWord? = none := by
  obtain ⟨s, params', rfl, ⟨m', headWord', -, hcall⟩ | ⟨m', hs, hm, hcall⟩⟩ := of_read h
  · exact absurd hcall nofun
  · cases hcall
    obtain ⟨hversion, rfl⟩ := Method.resolve_eq_ok_iff.mp hm
    exact ⟨rfl, hversion, Multicall.ofSelector?_selector_eq_none_iff.mp hs⟩

theorem length_of_read_multicall {calldata : Bytes} {m : V3Method} {headWord : Nat}
    (h : read version calldata = .ok (.multicall m headWord params)) :
    calldata.length = 4 + params.length := by
  rw [(of_read_multicall h).1]
  exact List.length_append

/-- What is read as a multicall is one. -/
theorem isMulticall_of_read {calldata : Bytes} {m : V3Method} {headWord : Nat}
    (h : read version calldata = .ok (.multicall m headWord params)) : IsMulticall calldata := by
  obtain ⟨rfl, hword⟩ := of_read_multicall h
  exact isMulticall_of_ofSelector? (Multicall.ofSelector?_eq_some_iff.mpr ⟨rfl, hword⟩) params

/-- What is read as a plain call is no multicall. -/
theorem not_isMulticall_of_read {calldata : Bytes} {m : Method}
    (h : read version calldata = .ok (.plain m params)) : ¬ IsMulticall calldata := by
  intro hmulticall
  obtain ⟨m', headWord, params', -, hread⟩ := exists_read_of_isMulticall version hmulticall
  exact absurd (h.symm.trans hread) nofun

/-- Any other call is plain, or it cannot be read. -/
theorem read_of_not_isMulticall {calldata : Bytes} (version : Version)
    (h : ¬ IsMulticall calldata) :
    (∃ e, read version calldata = .error e) ∨
      ∃ m params, read version calldata = .ok (.plain m params) := by
  rcases Nat.lt_or_ge calldata.length 4 with hshort | hlong
  · exact Or.inl ⟨_, read_of_length_lt version hshort⟩
  · obtain ⟨s, params, rfl⟩ := Bytes.exists_eq_selector_append hlong
    rw [read_plain (ofSelector?_eq_none h)]
    cases Method.resolve version s with
    | error e => exact Or.inl ⟨e, rfl⟩
    | ok m => exact Or.inr ⟨m, params, rfl⟩

end Call

namespace Decoder

/-- The refusal of a multicall beyond the limit. -/
def depthError (d : Decoder) : DecodeError :=
  .malformed (.nestingDepth (d.maxMulticallDepth + 1) d.maxMulticallDepth)

variable {d : Decoder} {tx : TxMetadata} {depth : Nat} {version : Version} {calldata params : Bytes}

theorem decodeAtDepth_error {e : DecodeError} (h : Call.read version calldata = .error e) :
    d.decodeAtDepth tx depth version calldata = .error e := by
  rw [decodeAtDepth, h, Decoded.error_bind]

theorem decodeAtDepth_plain {m : Method} (h : Call.read version calldata = .ok (.plain m params)) :
    d.decodeAtDepth tx depth version calldata = d.record tx m params >>= fun r => .ok [r] := by
  rw [decodeAtDepth, h, Decoded.ok_bind]
  rfl

/-- **A call of a method that takes no array of calls**, decoded by its own router,
gives one record of the fields in its block, and fails where these cannot be read. -/
theorem decode_selector_append_eq_map (d : Decoder) (tx : TxMetadata) {m : Method}
    (hm : m.headWord? = none) (params : Bytes) :
    d.decode m.version tx (m.selector.toBytes ++ params) =
      (m.decode params).map fun fields => [SwapRecord.ofMethod tx d.exchange m fields] := by
  have hread : Call.read m.version (m.selector.toBytes ++ params) = .ok (.plain m params) := by
    rw [Call.read_plain (Multicall.ofSelector?_selector_eq_none_iff.mpr hm),
      Method.resolve_selector, Decoded.ok_bind]
  rw [decode, decodeAtDepth_plain hread, record]
  cases m.decode params with
  | error e => rfl
  | ok fields => rfl

theorem decode_selector_append (d : Decoder) (tx : TxMetadata) (m : Method)
    (hm : Multicall.ofSelector? m.selector = none) {fields : SwapFields}
    (h : m.decode params = .ok fields) :
    d.decode m.version tx (m.selector.toBytes ++ params) =
      .ok [SwapRecord.ofMethod tx d.exchange m fields] := by
  rw [decode_selector_append_eq_map d tx (Multicall.ofSelector?_selector_eq_none_iff.mp hm), h]
  rfl

/-- A multicall within the limit: its calls are calls of the newer router, one
level further in. -/
theorem decodeAtDepth_multicall {m : V3Method} {headWord : Nat}
    (h : Call.read version calldata = .ok (.multicall m headWord params))
    (hdepth : depth < d.maxMulticallDepth) :
    d.decodeAtDepth tx depth version calldata =
      Multicall.split params headWord >>= fun calls =>
        calls.mapM (d.decodeAtDepth tx (depth + 1) .v3) >>= fun records =>
          .ok (records.flatten.map (·.within calls.length)) := by
  rw [decodeAtDepth, h, Decoded.ok_bind]
  simp only [if_pos hdepth]
  rfl

/-- A multicall that stands inside as many multicalls as there may be is
refused before it is split. -/
theorem decodeAtDepth_refused {m : V3Method} {headWord : Nat}
    (h : Call.read version calldata = .ok (.multicall m headWord params))
    (hdepth : d.maxMulticallDepth ≤ depth) :
    d.decodeAtDepth tx depth version calldata =
      Offset.add depth 1 >>= fun level =>
        .error (.malformed (.nestingDepth level d.maxMulticallDepth)) := by
  rw [decodeAtDepth, h, Decoded.ok_bind]
  simp only [if_neg (Nat.not_lt.mpr hdepth)]
  rfl

theorem decodeAtDepth_limit {m : V3Method} {headWord : Nat}
    (h : Call.read version calldata = .ok (.multicall m headWord params))
    (hfit : d.maxMulticallDepth + 1 < Offset.limit) :
    d.decodeAtDepth tx d.maxMulticallDepth version calldata = .error d.depthError := by
  have hadd : Offset.add d.maxMulticallDepth 1 = .ok (d.maxMulticallDepth + 1) := if_pos hfit
  rw [decodeAtDepth_refused h (Nat.le_refl _), hadd]
  rfl

/-- **What holds of the records of plain calls and is kept by multicalls** holds of
whatever calldata decodes to.  The induction is on the levels that are left. -/
theorem decodeAtDepth_induction {motive : Version → Bytes → List SwapRecord → Prop}
    (plain : ∀ {version calldata m params record},
      Call.read version calldata = .ok (.plain m params) → d.record tx m params = .ok record →
        motive version calldata [record])
    (multicall : ∀ {version calldata m headWord params calls records},
      Call.read version calldata = .ok (.multicall m headWord params) →
        Multicall.split params headWord = .ok calls → List.Forall₂ (motive .v3) calls records →
        motive version calldata (records.flatten.map (·.within calls.length)))
    {records : List SwapRecord} (h : d.decodeAtDepth tx depth version calldata = .ok records) :
    motive version calldata records := by
  induction hlevels : d.maxMulticallDepth - depth using Nat.strongRecOn
    generalizing depth version calldata records with
  | ind levels ih =>
    cases hread : Call.read version calldata with
    | error e =>
      rw [decodeAtDepth_error hread] at h
      exact absurd h nofun
    | ok call =>
      cases call with
      | plain m params =>
        rw [decodeAtDepth_plain hread] at h
        obtain ⟨record, hrecord, h⟩ := Decoded.bind_eq_ok_iff.mp h
        obtain rfl := Except.ok.inj h
        exact plain hread hrecord
      | multicall m headWord params =>
        rcases Nat.lt_or_ge depth d.maxMulticallDepth with hlt | hge
        · rw [decodeAtDepth_multicall hread hlt] at h
          obtain ⟨calls, hsplit, h⟩ := Decoded.bind_eq_ok_iff.mp h
          obtain ⟨records, hrecords, h⟩ := Decoded.bind_eq_ok_iff.mp h
          obtain rfl := Except.ok.inj h
          have hcalls := (Decoded.mapM_eq_ok_iff.mp hrecords).imp fun call inner hinner =>
            ih _ (by omega) hinner rfl
          exact multicall hread hsplit hcalls
        · rw [decodeAtDepth_refused hread hge] at h
          obtain ⟨level, -, h⟩ := Decoded.bind_eq_ok_iff.mp h
          exact absurd h nofun

/-- **How a failure comes about.**  What holds of the failure of a call that cannot be
read, of the fields of a plain call, of a multicall beyond the limit and of a
block that cannot be split, and is taken over from one of the calls of a
multicall, holds of every failure.  The induction is on the levels that are
left. -/
theorem decodeAtDepth_error_induction {motive : Nat → Version → Bytes → DecodeError → Prop}
    (unread : ∀ {depth version calldata e}, Call.read version calldata = .error e →
      motive depth version calldata e)
    (plain : ∀ {depth version calldata m params e},
      Call.read version calldata = .ok (.plain m params) → m.decode params = .error e →
        motive depth version calldata e)
    (refused : ∀ {depth version calldata m headWord params e},
      Call.read version calldata = .ok (.multicall m headWord params) →
        d.maxMulticallDepth ≤ depth →
          (Offset.limit ≤ depth + 1 ∧ e = .fault .overflow ∨
            e = .malformed (.nestingDepth (depth + 1) d.maxMulticallDepth)) →
              motive depth version calldata e)
    (split : ∀ {depth version calldata m headWord params e},
      Call.read version calldata = .ok (.multicall m headWord params) →
        depth < d.maxMulticallDepth → Multicall.split params headWord = .error e →
          motive depth version calldata e)
    (inner : ∀ {depth version calldata m headWord params calls call e},
      Call.read version calldata = .ok (.multicall m headWord params) →
        depth < d.maxMulticallDepth → Multicall.split params headWord = .ok calls →
          call ∈ calls → motive (depth + 1) .v3 call e → motive depth version calldata e)
    {e : DecodeError} (h : d.decodeAtDepth tx depth version calldata = .error e) :
    motive depth version calldata e := by
  induction hlevels : d.maxMulticallDepth - depth using Nat.strongRecOn
    generalizing depth version calldata with
  | ind levels ih =>
    cases hread : Call.read version calldata with
    | error e' =>
      rw [decodeAtDepth_error hread] at h
      obtain rfl := Except.error.inj h
      exact unread hread
    | ok call =>
      cases call with
      | plain m params =>
        rw [decodeAtDepth_plain hread, record] at h
        cases hfields : m.decode params with
        | error e' =>
          rw [hfields] at h
          obtain rfl := Except.error.inj h
          exact plain hread hfields
        | ok fields =>
          rw [hfields] at h
          exact absurd h nofun
      | multicall m headWord params =>
        rcases Nat.lt_or_ge depth d.maxMulticallDepth with hlt | hge
        · rw [decodeAtDepth_multicall hread hlt] at h
          cases hsplit : Multicall.split params headWord with
          | error e' =>
            rw [hsplit] at h
            obtain rfl := Except.error.inj h
            exact split hread hlt hsplit
          | ok calls =>
            rw [hsplit, Decoded.ok_bind] at h
            cases hcalls : calls.mapM (d.decodeAtDepth tx (depth + 1) .v3) with
            | error e' =>
              rw [hcalls] at h
              obtain rfl := Except.error.inj h
              obtain ⟨call, hcall, hfail⟩ := Decoded.exists_mem_of_mapM_eq_error hcalls
              exact inner hread hlt hsplit hcall (ih _ (by omega) hfail rfl)
            | ok records =>
              rw [hcalls] at h
              exact absurd h nofun
        · rw [decodeAtDepth_refused hread hge, Offset.add] at h
          refine refused hread hge ?_
          split at h
          · exact Or.inr (Except.error.inj h).symm
          · next hbig => exact Or.inl ⟨Nat.not_lt.mp hbig, (Except.error.inj h).symm⟩

/-- Neither the depth of a call that is no multicall matters nor the limit. -/
theorem decodeAtDepth_of_not_isMulticall {d' : Decoder} (hexchange : d.exchange = d'.exchange)
    (h : ¬ IsMulticall calldata) (depth depth' : Nat) :
    d.decodeAtDepth tx depth version calldata = d'.decodeAtDepth tx depth' version calldata := by
  rcases Call.read_of_not_isMulticall version h with ⟨e, hread⟩ | ⟨m, params, hread⟩
  · rw [decodeAtDepth_error hread, decodeAtDepth_error hread]
  · rw [decodeAtDepth_plain hread, decodeAtDepth_plain hread, record, record, hexchange]

end Decoder

end RouterCalldata
