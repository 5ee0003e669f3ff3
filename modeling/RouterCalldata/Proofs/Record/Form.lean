import RouterCalldata.Proofs.Bytes.HexText
import RouterCalldata.Proofs.Document.Members
import RouterCalldata.Record.Form

/-!
# Records and transactions are read back

What is written of a record is one object: the members of the record itself, and among them the
members that show its fields.  A field or a count that is not set leaves no member, and neither does
an empty list of calls.  All names in the object are different, so that each member is found by its
name, whether it is one of the record's own or one of the fields.

## Main definitions

* `Document.ReadsBack`: what is written is read back, and known members are all that counts;
* `SwapRecord.members`, `TxMetadata.members`: what is written, member by member.

## Main results

* `SwapFields.lookup_toMembers_name`, `SwapFields.ofMembers?_eq_some`: the members of the fields;
* `TxMetadata.readsBack`, `RawTransaction.readsBack`, `SwapFields.readsBack`,
  `SwapRecord.readsBack`: the four types.
-/

namespace RouterCalldata

open Document

/-- Documents of a type are read back.  What is written is an object that holds JSON values, and
reading it gives back the value it was written from.  An object with the same known members is
read in the same way, in whatever order these stand and whatever other members there are. -/
structure Document.ReadsBack {α : Type} (known : List String) (writable : α → Prop)
    (write : α → Document) (read : Document → Option α) : Prop where
  exists_members : ∀ a, ∃ ms, write a = .object ms
  isJson_write : ∀ a, (write a).IsJson
  read_write : ∀ a, writable a → read (write a) = some a
  read_rearranged : ∀ ms ms', Rearranged known ms ms' → read (.object ms') = read (.object ms)

/-! ## Scalars -/

namespace Version

@[simp] theorem ofDocument?_toDocument (v : Version) : ofDocument? v.toDocument = some v := by
  cases v <;> rfl

theorem isJson_toDocument (v : Version) : v.toDocument.IsJson := .string v.name

end Version

namespace Hex

/-- Bytes behind a mark are read as they stand. -/
theorem parseExact_encode0x (bs : Bytes) : parseExact (encode0x bs).toList = .ok bs := by
  have hmark : unmark (encode0x bs).toList = bs.flatMap hexPair := by
    rw [encode0x, String.toList_append, toList_encode]
    rfl
  rw [parseExact, hmark, decode, if_pos (by rw [length_utf8_flatMap_hexPair]; omega),
    decodeFrom_flatMap_hexPair]

end Hex

@[simp] theorem Document.asBytes?_encode0x (bs : Bytes) :
    asBytes? (string (Hex.encode0x bs)) = some bs := by
  show (Hex.parseExact (Hex.encode0x bs).toList).toOption = some bs
  rw [Hex.parseExact_encode0x]
  rfl

theorem Document.mapM_asBytes?_encode0x (calls : List Bytes) :
    (calls.map fun c => string (Hex.encode0x c)).mapM asBytes? = some calls := by
  induction calls with
  | nil => rfl
  | cons c calls ih =>
    rw [List.map_cons, List.mapM_cons, asBytes?_encode0x, ih]
    rfl

/-! ## Transactions -/

namespace TxMetadata

/-- What is written, member by member. -/
def members (tx : TxMetadata) : List (String × Document) :=
  [("tx_hash", .string tx.txHash), ("to_address", .string tx.toAddress),
    ("value", .string tx.value)] ++
  shown "chain_id" tx.chainId fun n => .number (.nat n)

theorem toDocument_eq (tx : TxMetadata) : tx.toDocument = .object tx.members := rfl

theorem nodup_members (tx : TxMetadata) : (tx.members.map (·.1)).Nodup := by
  unfold members
  cases tx.chainId with
  | none => simp [shown]
  | some n => simp [shown]

theorem readsBack : ReadsBack memberNames (fun _ => True) toDocument ofDocument? where
  exists_members tx := ⟨tx.members, rfl⟩
  isJson_write tx := by
    apply IsJson.object
    cases tx.chainId <;> simp [shown, IsJson.string, IsJson.number]
  read_write tx _ := by
    have h := tx.nodup_members
    have hchain : optional tx.members "chain_id" asNat? = some tx.chainId := by
      apply optional_eq_some h fun n => .number (.nat n)
      · simp [members, List.lookup_cons, lookup_shown]
      · intro n
        rfl
    rw [toDocument_eq]
    unfold ofDocument?
    simp only [members?, Option.bind_eq_bind, Option.bind_some, hchain, required_eq_bind h,
      orElse_eq_of_lookup h]
    simp [members, List.lookup_cons, asText?]
  read_rearranged ms ms' h := by
    unfold ofDocument?
    simp only [members?, Option.bind_eq_bind, Option.bind_some]
    simp (disch := decide) only [h.required_eq, h.orElse_eq, h.optional_eq]

end TxMetadata

namespace RawTransaction

theorem readsBack : ReadsBack memberNames (fun _ => True) toDocument ofDocument? where
  exists_members tx := ⟨_, rfl⟩
  isJson_write tx := by
    apply IsJson.object
    simp [IsJson.string, Version.isJson_toDocument, TxMetadata.readsBack.isJson_write]
  read_write tx _ := by
    have hmeta := TxMetadata.readsBack.read_write tx.metadata trivial
    unfold ofDocument? toDocument
    simp only [members?, Option.bind_eq_bind, Option.bind_some]
    simp [required, member?, hmeta]
  read_rearranged ms ms' h := by
    unfold ofDocument?
    simp only [members?, Option.bind_eq_bind, Option.bind_some]
    simp (disch := decide) only [h.required_eq]

end RawTransaction

/-! ## Fields -/

namespace Field

theorem nodup_names : (all.map name).Nodup := by decide

theorem name_injective {f g : Field} (h : f.name = g.name) : f = g :=
  List.inj_on_of_nodup_map nodup_names (mem_all f) (mem_all g) h

theorem name_mem (f : Field) : f.name ∈ all.map name := List.mem_map_of_mem (mem_all f)

end Field

namespace SwapFields

variable (fs : SwapFields)

theorem toMembers_eq : fs.toMembers =
    Field.all.filterMap fun f => (fs.value f).map fun text => (f.name, string text) := by
  unfold toMembers toList
  rw [List.map_filterMap]
  simp [Function.comp_def]

theorem names_toMembers_sublist : (fs.toMembers.map (·.1)).Sublist (Field.all.map Field.name) := by
  rw [toMembers_eq]
  induction Field.all with
  | nil => simp
  | cons f rest ih =>
    cases hf : fs.value f with
    | none => simpa [hf] using ih.cons f.name
    | some text => simpa [hf] using ih

theorem nodup_toMembers : (fs.toMembers.map (·.1)).Nodup :=
  Field.nodup_names.sublist fs.names_toMembers_sublist

theorem isJson_toMembers : ∀ m ∈ fs.toMembers, m.2.IsJson := by
  intro m hm
  obtain ⟨⟨f, text⟩, -, rfl⟩ := List.mem_map.mp hm
  exact IsJson.string text

/-- A field is found under its name, if it is set. -/
theorem lookup_toMembers_name (f : Field) :
    fs.toMembers.lookup f.name = (fs.value f).map string := by
  have hfields (fields : List Field) :
      (fields.filterMap fun f => (fs.value f).map fun text => (f.name, string text)).lookup f.name =
        if f ∈ fields then (fs.value f).map string else none := by
    induction fields with
    | nil => simp
    | cons g rest ih =>
      by_cases hg : f = g
      · subst hg
        cases hf : fs.value f with
        | none => simp [hf, ih]
        | some text => simp [hf]
      · have hname : (f.name == g.name) = false :=
          beq_false_of_ne fun h => hg (Field.name_injective h)
        cases hf : fs.value g with
        | none => simp [hf, ih, hg]
        | some text => simp [hf, ih, hg, List.lookup_cons, hname]
  rw [toMembers_eq, hfields, if_pos (Field.mem_all f)]

/-- Nothing is found under the name of no field. -/
theorem lookup_toMembers_eq_none {name : String} (h : name ∉ Field.all.map Field.name) :
    fs.toMembers.lookup name = none := by
  apply List.lookup_eq_none_iff.mpr
  intro m hm
  have hname : m.1 ∈ Field.all.map Field.name :=
    fs.names_toMembers_sublist.subset (List.mem_map_of_mem hm)
  simp only [bne_iff_ne]
  rintro rfl
  exact h hname

variable {fs}

/-- Steps each of which puts one field in, over what is there already, put all fields in. -/
theorem foldlM_eq_some (fs : SwapFields) {step : SwapFields → Field → Option SwapFields}
    (h : ∀ acc f, step acc f =
      some ⟨fun g => if g = f then (fs.value f).or (acc.value g) else acc.value g⟩)
    (fields : List Field) (acc : SwapFields) :
    fields.foldlM step acc =
      some ⟨fun g => if g ∈ fields then (fs.value g).or (acc.value g) else acc.value g⟩ := by
  induction fields generalizing acc with
  | nil => simp
  | cons f rest ih =>
    rw [List.foldlM_cons, h, Option.bind_eq_bind, Option.bind_some, ih]
    congr 2
    funext g
    by_cases hg : g = f
    · subst hg
      cases fs.value g <;> simp
    · simp [hg]

/-- Fields are read if each of them can be read. -/
theorem ofMembers?_eq_some {ms : List (String × Document)}
    (h : ∀ f : Field, optional ms f.name asText? = some (fs.value f)) :
    ofMembers? ms = some fs := by
  unfold ofMembers?
  rw [foldlM_eq_some fs]
  · simp [Field.mem_all]
  · intro acc f
    rw [h f, Option.bind_eq_bind, Option.bind_some]
    cases hf : fs.value f with
    | none => simp
    | some text => simp [set]

theorem ofMembers?_congr {ms ms' : List (String × Document)}
    (h : ∀ f : Field, optional ms' f.name asText? = optional ms f.name asText?) :
    ofMembers? ms' = ofMembers? ms := by
  unfold ofMembers?
  simp only [h]

theorem readsBack :
    ReadsBack (Field.all.map Field.name) (fun _ => True) toDocument ofDocument? where
  exists_members fs := ⟨fs.toMembers, rfl⟩
  isJson_write fs := IsJson.object fs.isJson_toMembers
  read_write fs _ := by
    unfold ofDocument? toDocument
    rw [members?, Option.bind_eq_bind, Option.bind_some]
    apply ofMembers?_eq_some
    intro f
    exact optional_eq_some fs.nodup_toMembers string (fs.lookup_toMembers_name f) fun text => rfl
  read_rearranged ms ms' h := by
    unfold ofDocument?
    simp only [members?, Option.bind_eq_bind, Option.bind_some]
    exact ofMembers?_congr fun f => h.optional_eq f.name_mem

end SwapFields

/-! ## Records -/

namespace SwapRecord

/-- The calls that are shown, none if there are none. -/
def shownCalls (r : SwapRecord) : Option (List Bytes) :=
  if r.callsData.isEmpty then none else some r.callsData

theorem getD_shownCalls (r : SwapRecord) : r.shownCalls.getD [] = r.callsData := by
  unfold shownCalls
  cases r.callsData <;> rfl

/-- What is written, member by member. -/
def members (r : SwapRecord) : List (String × Document) :=
  [("tx_hash", .string r.txHash), ("version", r.version.toDocument),
    ("exchange", .string r.exchange), ("method_id", .string r.methodId),
    ("method_name", .string r.methodName), ("to_address", .string r.toAddress),
    ("tx_value", .string r.txValue)] ++
  r.fields.toMembers ++
  shown "value" r.value (fun x => .number (.double x)) ++
  shown "number_of_calls" r.numberOfCalls (fun n => .number (.nat n)) ++
  shown "calls_data" r.shownCalls
    (fun calls => .array (calls.map fun c => .string (Hex.encode0x c)))

theorem toDocument_eq (r : SwapRecord) : r.toDocument = .object r.members := by
  unfold toDocument members shownCalls
  cases r.callsData <;> rfl

/-- All names of members that may be written, in the order in which they are. -/
def writtenNames : List String :=
  ["tx_hash", "version", "exchange", "method_id", "method_name", "to_address", "tx_value"] ++
    Field.all.map Field.name ++ ["value"] ++ ["number_of_calls"] ++ ["calls_data"]

theorem names_members_sublist (r : SwapRecord) : (r.members.map (·.1)).Sublist writtenNames := by
  simp only [members, writtenNames, List.map_append]
  have hown := (List.Sublist.refl ["tx_hash", "version", "exchange", "method_id", "method_name",
    "to_address", "tx_value"]).append r.fields.names_toMembers_sublist
  exact ((hown.append (names_shown_sublist ..)).append (names_shown_sublist ..)).append
    (names_shown_sublist ..)

theorem nodup_members (r : SwapRecord) : (r.members.map (·.1)).Nodup := by
  have h : writtenNames.Nodup := by decide
  exact h.sublist r.names_members_sublist

theorem isJson_members (r : SwapRecord) : ∀ m ∈ r.members, m.2.IsJson := by
  intro m hm
  simp only [members, List.mem_append] at hm
  rcases hm with (((hm | hm) | hm) | hm) | hm
  · simp only [List.mem_cons, List.not_mem_nil, or_false] at hm
    rcases hm with rfl | rfl | rfl | rfl | rfl | rfl | rfl
    all_goals exact IsJson.string _
  · exact r.fields.isJson_toMembers m hm
  · exact isJson_of_mem_shown (fun x => IsJson.number _) hm
  · exact isJson_of_mem_shown (fun n => IsJson.number _) hm
  · apply isJson_of_mem_shown (fun calls => ?_) hm
    apply IsJson.array
    intro d hd
    obtain ⟨c, -, rfl⟩ := List.mem_map.mp hd
    exact IsJson.string _

/-- A field has the name of no member of the record itself. -/
theorem name_ne_of_mem (f : Field) {name : String} (h : name ∈ memberNames) : f.name ≠ name := by
  have hnames : ∀ name ∈ memberNames, ∀ f ∈ Field.all, f.name ≠ name := by decide
  exact hnames name h f (Field.mem_all f)

/-- Under the name of a field only the field is found. -/
theorem lookup_members_name (r : SwapRecord) (f : Field) :
    r.members.lookup f.name = (r.fields.value f).map string := by
  have hne (name : String) (h : name ∈ memberNames) : (f.name == name) = false :=
    beq_false_of_ne (name_ne_of_mem f h)
  have hshown {α : Type} (name : String) (h : name ∈ memberNames) (value : Option α)
      (show' : α → Document) : (shown name value show').lookup f.name = none := by
    rw [lookup_shown, if_neg (name_ne_of_mem f h)]
  unfold members
  simp (disch := decide) only [List.lookup_append, List.lookup_cons, List.lookup_nil, hne, hshown,
    r.fields.lookup_toMembers_name]
  simp

/-- Under the name of a member of the record itself no field is found. -/
theorem lookup_toMembers_eq_none (r : SwapRecord) {name : String} (h : name ∈ memberNames) :
    r.fields.toMembers.lookup name = none := by
  apply SwapFields.lookup_toMembers_eq_none
  intro hname
  obtain ⟨f, -, hf⟩ := List.mem_map.mp hname
  exact name_ne_of_mem f h hf

/-- The fields of a record are read from among all its members. -/
theorem ofMembers?_resolved_members (r : SwapRecord) :
    SwapFields.ofMembers? (r.members.map fun (name, d) => (name, d.resolved)) = some r.fields := by
  rw [map_resolved_eq_self r.isJson_members]
  apply SwapFields.ofMembers?_eq_some
  intro f
  exact optional_eq_some r.nodup_members string (r.lookup_members_name f) fun text => rfl

theorem ofMembers?_resolved {ms ms' : List (String × Document)}
    (h : Rearranged (memberNames ++ Field.all.map Field.name) ms ms') :
    SwapFields.ofMembers? (ms'.map fun (name, d) => (name, d.resolved)) =
      SwapFields.ofMembers? (ms.map fun (name, d) => (name, d.resolved)) := by
  apply SwapFields.ofMembers?_congr
  intro f
  exact h.resolved.optional_eq (List.mem_append_right _ f.name_mem)

theorem readsBack : ReadsBack (memberNames ++ Field.all.map Field.name)
    (fun r => r.value = none) toDocument ofDocument? where
  exists_members r := ⟨r.members, r.toDocument_eq⟩
  isJson_write r := by
    rw [toDocument_eq]
    exact IsJson.object r.isJson_members
  read_write r _ := by
    have h := r.nodup_members
    have htaken : r.members.all takesIn = true := by
      apply List.all_eq_true.mpr
      intro m hm
      simp [takesIn, (r.isJson_members m hm).isReadable]
    have hversion : required r.members "version" Version.ofDocument? = some r.version := by
      rw [required_eq_bind h]
      exact Version.ofDocument?_toDocument r.version
    have hnumber : optional r.members "number_of_calls" asNat? = some r.numberOfCalls := by
      apply optional_eq_some h fun n => .number (.nat n)
      · simp (disch := decide) [members, List.lookup_append, List.lookup_cons, lookup_shown,
          lookup_toMembers_eq_none]
      · intro n
        rfl
    have hvaluation : optional r.members "value" asDouble? = some r.value := by
      apply optional_eq_some h fun x => .number (.double x)
      · simp (disch := decide) [members, List.lookup_append, List.lookup_cons, lookup_shown,
          lookup_toMembers_eq_none]
      · intro x
        rfl
    have hcalls : orElse r.members "calls_data" []
        (fun d => d.asArray?.bind fun items => items.mapM asBytes?) = some r.callsData := by
      rw [← r.getD_shownCalls]
      apply orElse_eq_some h
        fun calls => .array (calls.map fun c => .string (Hex.encode0x c))
      · simp (disch := decide) [members, List.lookup_append, List.lookup_cons, lookup_shown,
          lookup_toMembers_eq_none]
      · intro calls
        exact mapM_asBytes?_encode0x calls
    rw [toDocument_eq]
    unfold ofDocument?
    dsimp only [entries?, Option.bind_eq_bind, Option.bind_some]
    rw [htaken, hversion, r.ofMembers?_resolved_members, hvaluation, hnumber, hcalls]
    iterate 6 rw [required_eq_bind h]
    rfl
  read_rearranged ms ms' h := by
    have htaken : ms'.all takesIn = ms.all takesIn := by
      obtain ⟨more, hperm, hmore⟩ := h
      have hall : more.all takesIn = true := by
        apply List.all_eq_true.mpr
        intro m hm
        simp [takesIn, (hmore m hm).2.isReadable]
      rw [hperm.all_eq, List.all_append, hall, Bool.and_true]
    -- member by member, as simplifying one read inside the other takes exponential time
    unfold ofDocument?
    dsimp only [entries?, Option.bind_eq_bind, Option.bind_some]
    rw [htaken, ofMembers?_resolved h]
    iterate 7 rw [h.required_eq]
    iterate 2 rw [h.optional_eq]
    rw [h.orElse_eq]
    all_goals decide

end SwapRecord

end RouterCalldata
