import RouterCalldata.Proofs.Decoder.Calls
import RouterCalldata.Proofs.Multicall.Faultless
import RouterCalldata.Proofs.Multicall.Staging

/-!
# Telling the method and decoding the call

The method of a call can be asked for without decoding the call, and a multicall can be staged
without decoding its calls.  Each of the three looks at the selector, and a multicall is recognised
under either version.  They have to come to the same end, or a caller that asks first would be
told of a method that is not the one decoded.

What decides is whether the calldata is that of a multicall.  If it is, the version plays no part in
any of the three; if it is not, the method is the one of the version that has the selector.  Behind
this decision no call is taken for one of the other kind, so that the reader of fields never meets
an array of calls, however deep.

## Main results

* `exists_method_iff_isMulticall`: the method told takes an array of calls exactly for multicalls;
* `stage_unknownSelector_iff`: what cannot be staged;
* `decodeAtDepth_ne_nestedOnly`: an array of calls is never read as fields;
* `decode_of_method`: telling the method, staging and decoding agree.
-/

namespace RouterCalldata.Decoder

open Decoded

variable {d : Decoder} {tx : TxMetadata} {version : Version} {calldata : Bytes}

/-! ## The method -/

theorem method_of_read {call : Call} (h : Call.read version calldata = .ok call) :
    method version calldata = .ok call.method := by
  rw [method, h]
  rfl

theorem read_eq_error_of_method {e : DecodeError} (h : method version calldata = .error e) :
    Call.read version calldata = .error e := by
  cases hread : Call.read version calldata with
  | error e' =>
    rw [method, hread] at h
    exact congrArg Except.error (Except.error.inj h)
  | ok call =>
    rw [method_of_read hread] at h
    exact absurd h nofun

/-- **A method that takes an array of calls is told exactly for multicalls**, and
for either version. -/
theorem exists_method_iff_isMulticall (version : Version) (calldata : Bytes) :
    (∃ m, method version calldata = .ok m ∧ m.headWord? ≠ none) ↔ IsMulticall calldata := by
  constructor
  · rintro ⟨m, hm, hword⟩
    obtain ⟨call, hread, hcall⟩ := bind_eq_ok_iff.mp hm
    obtain rfl := Except.ok.inj hcall
    cases call with
    | plain m params => exact absurd (Call.of_read_plain hread).2.2 hword
    | multicall m headWord params => exact Call.isMulticall_of_read hread
  · intro h
    obtain ⟨m, headWord, params, -, hread⟩ := Call.exists_read_of_isMulticall version h
    refine ⟨.v3 m, method_of_read hread, ?_⟩
    rw [Method.headWord?, (Call.of_read_multicall hread).2]
    exact nofun

/-- A method that takes no array of calls is told of a plain call of the method. -/
theorem exists_read_plain {m : Method} (h : method version calldata = .ok m)
    (hword : m.headWord? = none) :
    ∃ params, Call.read version calldata = .ok (.plain m params) := by
  obtain ⟨call, hread, hcall⟩ := bind_eq_ok_iff.mp h
  obtain rfl := Except.ok.inj hcall
  cases call with
  | plain m params => exact ⟨params, hread⟩
  | multicall m headWord params =>
    exact absurd ((Call.of_read_multicall hread).2.symm.trans hword) nofun

/-! ## Staging -/

theorem stage_append_of_eq_none {s : Selector} (h : Multicall.ofSelector? s = none)
    (params : Bytes) : d.stage tx (s.toBytes ++ params) = .error (.unknownSelector s .v3) := by
  rw [stage, Multicall.stage, Bytes.readSelector_append, ok_bind, h]
  rfl

/-- Staging knows the selector of a multicall.  After that only splitting can fail,
which never speaks of selectors. -/
theorem stage_ne_unknownSelector (h : IsMulticall calldata) (s : Selector) (version : Version) :
    d.stage tx calldata ≠ .error (.unknownSelector s version) := by
  intro hstage
  obtain ⟨s', m, headWord, params, rfl, hs⟩ := h.exists_eq
  rw [stage, Multicall.stage_append hs] at hstage
  cases hsplit : Multicall.split params headWord with
  | error e =>
    rw [hsplit] at hstage
    obtain rfl := Except.error.inj hstage
    rcases Multicall.checkedIn_split params headWord _ hsplit with he | ⟨he, -⟩
    · exact he
    · exact he
  | ok calls =>
    rw [hsplit, ok_bind] at hstage
    cases hstage

/-- **What cannot be staged** for its selector is no multicall, if there is a selector. -/
theorem stage_unknownSelector_iff (hlong : 4 ≤ calldata.length) :
    (∃ s v, d.stage tx calldata = .error (.unknownSelector s v)) ↔ ¬ IsMulticall calldata := by
  constructor
  · rintro ⟨s, v, hstage⟩ hmulticall
    exact stage_ne_unknownSelector hmulticall s v hstage
  · intro hplain
    obtain ⟨s, params, rfl⟩ := Bytes.exists_eq_selector_append hlong
    exact ⟨s, .v3, stage_append_of_eq_none (ofSelector?_eq_none hplain) params⟩

/-! ## Decoding -/

/-- The version plays no part in reading a multicall. -/
theorem read_version_of_isMulticall (h : IsMulticall calldata) (version version' : Version) :
    Call.read version calldata = Call.read version' calldata := by
  obtain ⟨s, m, headWord, params, rfl, hs⟩ := h.exists_eq
  rw [Call.read_multicall hs, Call.read_multicall hs]

/-- **An array of calls is never read as fields**, however deep the call. -/
theorem decodeAtDepth_ne_nestedOnly (depth : Nat) (version : Version) (calldata : Bytes)
    (name : String) :
    d.decodeAtDepth tx depth version calldata ≠ .error (.malformed (.nestedOnly name)) := by
  intro h
  refine decodeAtDepth_error_induction
    (motive := fun _ _ _ e => ∀ name, e ≠ .malformed (.nestedOnly name))
    ?unread ?plain ?refused ?split ?inner h name rfl
  case unread =>
    rintro depth version calldata e hread name rfl
    rcases Call.of_read_eq_error hread with he | ⟨s, params, -, -, he⟩
    · exact absurd he nofun
    · exact absurd he nofun
  case plain =>
    rintro depth version calldata m params e hread hfields name rfl
    exact Method.checked_decode (Call.of_read_plain hread).2.2 params _ hfields
  case refused =>
    rintro depth version calldata m headWord params e - - he name rfl
    rcases he with ⟨-, he⟩ | he
    · exact absurd he nofun
    · exact absurd he nofun
  case split =>
    rintro depth version calldata m headWord params e - - hsplit name rfl
    rcases Multicall.checkedIn_split params headWord _ hsplit with he | ⟨he, -⟩
    · exact he
    · exact he
  case inner =>
    intro depth version calldata m headWord params calls call e _ _ _ _ ih
    exact ih

/-- A plain call gives one record of its method, or fails by what its block holds. -/
theorem decode_of_read_plain {m : Method} {params : Bytes}
    (h : Call.read version calldata = .ok (.plain m params)) :
    (∃ r, d.decode version tx calldata = .ok [r] ∧ r.version = m.version ∧
        r.methodId = m.selector.hex ∧ r.methodName = m.name) ∨
      ∃ e, d.decode version tx calldata = .error e ∧
        (e.IsTruncated ∨ e.IsOutOfBounds ∨ e.IsMalformed) := by
  rw [decode, decodeAtDepth_plain h, record]
  cases hfields : m.decode params with
  | error e =>
    exact Or.inr ⟨e, rfl, (Method.checked_decode (Call.of_read_plain h).2.2 params e hfields).kinds⟩
  | ok fields => exact Or.inl ⟨_, rfl, rfl, rfl, rfl⟩

/-- **Telling the method, staging and decoding agree.**  Where no method is told,
decoding fails in the same way.  A method that takes no array of calls is one of
the caller's version, and decoding gives one record of it or fails by what the
block holds.  A method that takes an array of calls is told for either version;
the version makes no difference to decoding, and staging knows the selector.
Staging does not know the selectors for which no such method is told.  At no depth
does decoding refuse an array of calls for being one. -/
theorem decode_of_method (d : Decoder) (tx : TxMetadata) (version : Version) (calldata : Bytes) :
    (∀ e, method version calldata = .error e → d.decode version tx calldata = .error e) ∧
      (∀ m, method version calldata = .ok m → m.headWord? = none →
        m.version = version ∧
          ((∃ r, d.decode version tx calldata = .ok [r] ∧ r.version = m.version ∧
              r.methodId = m.selector.hex ∧ r.methodName = m.name) ∨
            ∃ e, d.decode version tx calldata = .error e ∧
              (e.IsTruncated ∨ e.IsOutOfBounds ∨ e.IsMalformed))) ∧
      (∀ m, method version calldata = .ok m → m.headWord? ≠ none →
        (∀ version', method version' calldata = .ok m) ∧
          d.decode .v2 tx calldata = d.decode .v3 tx calldata ∧
          ∀ s v, d.stage tx calldata ≠ .error (.unknownSelector s v)) ∧
      (4 ≤ calldata.length →
        ((∃ s v, d.stage tx calldata = .error (.unknownSelector s v)) ↔
          ¬ ∃ m, method .v3 calldata = .ok m ∧ m.headWord? ≠ none)) ∧
      ∀ depth name,
        d.decodeAtDepth tx depth version calldata ≠ .error (.malformed (.nestedOnly name)) := by
  refine ⟨?_, ?_, ?_, ?_, fun depth name => decodeAtDepth_ne_nestedOnly depth version calldata name⟩
  · intro e he
    exact decodeAtDepth_error (read_eq_error_of_method he)
  · intro m hm hword
    obtain ⟨params, hread⟩ := exists_read_plain hm hword
    exact ⟨(Call.of_read_plain hread).2.1, decode_of_read_plain hread⟩
  · intro m hm hword
    have hmulticall := (exists_method_iff_isMulticall version calldata).mp ⟨m, hm, hword⟩
    refine ⟨?_, ?_, stage_ne_unknownSelector hmulticall⟩
    · intro version'
      rw [method, read_version_of_isMulticall hmulticall version' version]
      exact hm
    · rw [decode, decode, decodeAtDepth, decodeAtDepth,
        read_version_of_isMulticall hmulticall .v2 .v3]
  · intro hlong
    rw [exists_method_iff_isMulticall]
    exact stage_unknownSelector_iff hlong

/-- Bare selectors: one in no table, one of a plain call, one of a multicall and one
of a swap, which cannot be staged. -/
theorem decode_of_method_selectors :
    let tx := TxMetadata.ofCall "hash" "router"
    let unknown : Selector := ⟨1, 2, 3, 4⟩
    let refund := V3Method.refundETH.selector.toBytes
    let multicall := V3Method.multicall.selector.toBytes
    let swap := V2Method.swapExactETHForTokens.selector.toBytes
    method .v3 unknown.toBytes = .error (.unknownSelector unknown .v3) ∧
      Decoder.default.decode .v3 tx unknown.toBytes = .error (.unknownSelector unknown .v3) ∧
      method .v3 refund = .ok (.v3 .refundETH) ∧ (Method.v3 .refundETH).headWord? = none ∧
      ((∃ r, Decoder.default.decode .v3 tx refund = .ok [r] ∧ r.version = .v3 ∧
          r.methodId = (Method.v3 .refundETH).selector.hex ∧ r.methodName = "RefundETH") ∨
        ∃ e, Decoder.default.decode .v3 tx refund = .error e ∧
          (e.IsTruncated ∨ e.IsOutOfBounds ∨ e.IsMalformed)) ∧
      method .v2 multicall = .ok (.v3 .multicall) ∧ (Method.v3 .multicall).headWord? ≠ none ∧
      method .v3 multicall = .ok (.v3 .multicall) ∧
      Decoder.default.decode .v2 tx multicall = Decoder.default.decode .v3 tx multicall ∧
      (∀ s v, Decoder.default.stage tx multicall ≠ .error (.unknownSelector s v)) ∧
      4 ≤ swap.length ∧
      ((∃ s v, Decoder.default.stage tx swap = .error (.unknownSelector s v)) ↔
        ¬ ∃ m, method .v3 swap = .ok m ∧ m.headWord? ≠ none) ∧
      Decoder.default.decodeAtDepth tx 3 .v3 multicall ≠
        .error (.malformed (.nestedOnly "Multicall")) := by
  intro tx unknown refund multicall swap
  have hunknown : method .v3 unknown.toBytes = .error (.unknownSelector unknown .v3) := by decide
  have hrefund : method .v3 refund = .ok (.v3 .refundETH) := by decide
  have hmulticall : method .v2 multicall = .ok (.v3 .multicall) := by decide
  have hword : (Method.v3 .multicall).headWord? ≠ none := by decide
  have hsame := (decode_of_method .default tx .v2 multicall).2.2.1 _ hmulticall hword
  exact ⟨hunknown, (decode_of_method .default tx .v3 unknown.toBytes).1 _ hunknown, hrefund, rfl,
    ((decode_of_method .default tx .v3 refund).2.1 _ hrefund rfl).2, hmulticall, hword,
    hsame.1 .v3, hsame.2.1, hsame.2.2, by decide,
    (decode_of_method .default tx .v2 swap).2.2.2.1 (by decide),
    (decode_of_method .default tx .v3 multicall).2.2.2.2 3 "Multicall"⟩

end RouterCalldata.Decoder
