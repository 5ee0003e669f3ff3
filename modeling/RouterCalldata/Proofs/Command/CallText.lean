import RouterCalldata.Proofs.Command.Arguments
import RouterCalldata.Proofs.Command.BatchLines
import RouterCalldata.Proofs.Document.Members

/-!
# A call as a user writes it down

A call consists of a few texts, most of which may be left out.  It can be written down as the
options of a command line or as the members of a JSON object; in both places what is left out is
filled in alike.

## Main definitions

* `CallText`: the texts of a call; `CallText.toLine`: with what is left out filled in;
* `CallText.decodeLine`: the call on a command line;
* `CallText.members`: the call in an object.

## Main results

* `CallText.ofArgs_decodeLine`, `CallText.ofArgs_decodeLine_eq_error`: the command line asks for the
  call, unless the text of its version is refused;
* `CallText.ofDocument?_eq_some`: the object is read as the call.
-/

namespace RouterCalldata

open Document

/-- A call as a user writes it down, with every text but the calldata given or left out. -/
structure CallText where
  calldata : String
  version : Option String
  toAddress : Option String
  txHash : Option String
  value : Option String

namespace CallText

variable (c : CallText)

/-- The call with what is left out filled in. -/
def toLine : BatchLine :=
  { calldata := c.calldata, version := c.version, txHash := c.txHash.getD "",
    toAddress := c.toAddress.getD "", value := c.value.getD "0" }

/-! ## On the command line -/

/-- An option, if its value is given. -/
def optional (name : String) (value : Option String) : Given :=
  value.toList.map fun text => (name, text)

/-- The options that write a call down. -/
def options : Given :=
  [("--calldata", c.calldata)] ++ optional "--version" c.version ++
    optional "--to" c.toAddress ++ optional "--tx-hash" c.txHash ++ optional "--value" c.value

/-- The command line that decodes a call and shows its records as JSON. -/
def decodeLine : List String := "decode" :: "--json" :: c.options.map attached

theorem lookup_optional (name name' : String) (value : Option String) :
    (optional name value).lookup name' = if name' = name then value else none := by
  cases value with
  | none => simp [optional]
  | some text =>
    by_cases h : name' = name
    · simp [optional, h]
    · simp [optional, List.lookup_cons, h, beq_false_of_ne h]

theorem requestOf_options : Invocation.requestOf (("--json", "") :: c.options) .decode =
    .decode {
      calldata := c.calldata
      version := c.version.bind Version.ofText?
      toAddress := c.toAddress.getD ""
      txHash := c.txHash.getD ""
      value := c.value.getD "0"
      json := true } := by
  simp [Invocation.requestOf, options, List.lookup_append, List.lookup_cons, lookup_optional]

theorem mem_optional {name : String} {value : Option String} {option : String × String} :
    option ∈ optional name value ↔ ∃ text, value = some text ∧ option = (name, text) := by
  cases value with
  | none => simp [optional]
  | some text => simp [optional]

theorem names_optional_sublist (name : String) (value : Option String) :
    ((optional name value).map (·.1)).Sublist [name] := by
  cases value <;> simp [optional]

/-- The version is accepted if its text names one. -/
theorem refusal_versionOpt (text : String) :
    versionOpt.refusal text =
      if (Version.ofText? text).isSome then none else some (CallFault.badVersion text).reason := by
  unfold versionOpt Version.read
  dsimp only
  cases Version.ofText? text <;> rfl

variable {c}

theorem accepts_options (h : ∀ text, c.version = some text → (Version.ofText? text).isSome = true) :
    ∀ option ∈ c.options, (Side.behind .decode).Accepts option := by
  intro option hoption
  simp only [options, List.mem_append, mem_optional, List.mem_singleton] at hoption
  rcases hoption with (((rfl | ⟨text, htext, rfl⟩) | ⟨text, -, rfl⟩) | ⟨text, -, rfl⟩) |
    ⟨text, -, rfl⟩
  · exact Side.accepts_text "CALLDATA" _ (by simp [CommandName.opts])
  · refine ⟨versionOpt, Side.knows_of_mem_opts (by simp [CommandName.opts]), rfl, rfl, ?_⟩
    rw [refusal_versionOpt, if_pos (h text htext)]
  · exact Side.accepts_text "TO" _ (by simp [CommandName.opts])
  · exact Side.accepts_text "TX_HASH" _ (by simp [CommandName.opts])
  · exact Side.accepts_text "VALUE" _ (by simp [CommandName.opts])

theorem names_options_sublist : (c.options.map (·.1)).Sublist
    (["--calldata"] ++ ["--version"] ++ ["--to"] ++ ["--tx-hash"] ++ ["--value"]) := by
  simp only [options, List.map_append]
  exact ((((List.Sublist.refl ["--calldata"]).append (names_optional_sublist ..)).append
    (names_optional_sublist ..)).append (names_optional_sublist ..)).append
    (names_optional_sublist ..)

theorem nodup_options : ((("--json", "") :: c.options).map (·.1)).Nodup := by
  have hall : ["--json", "--calldata", "--version", "--to", "--tx-hash", "--value"].Nodup := by
    decide
  exact hall.sublist (c.names_options_sublist.cons_cons "--json")

/-- The flag for JSON stands in front of the other options. -/
theorem scan_json (rest : List String) :
    Taken.start.scan (.behind .decode) ("--json" :: rest) =
      Taken.scan ⟨[("--json", "")], none⟩ (.behind .decode) rest := by
  have hknows : (Side.behind .decode).Knows (.flag "--json") :=
    Side.knows_of_mem_opts (by simp [CommandName.opts])
  have hscan := Taken.scan_flag [] hknows rfl rest
  rw [give_eq_ok rfl rfl] at hscan
  exact hscan

/-- **A call whose version can be read is what is asked for.** -/
theorem ofArgs_decodeLine
    (h : ∀ text, c.version = some text → (Version.ofText? text).isSome = true) :
    Invocation.ofArgs c.decodeLine = .ok {
      verbose := false
      config := none
      request := .decode {
        calldata := c.calldata
        version := c.version.bind Version.ofText?
        toAddress := c.toAddress.getD ""
        txHash := c.txHash.getD ""
        value := c.value.getD "0"
        json := true } } := by
  have hscan : Taken.start.scan (.behind .decode) ("--json" :: c.options.map attached) =
      .ok (⟨("--json", "") :: c.options, none⟩, none) := by
    have hall := Taken.scan_accepted [("--json", "")] (accepts_options h) nodup_options []
    rw [List.append_nil] at hall
    rw [scan_json, hall]
    rfl
  have hverbose : List.lookup "--verbose" (("--json", "") :: c.options) = none := by
    simp [options, List.lookup_append, List.lookup_cons, lookup_optional]
  have hconfig : List.lookup "--config" (("--json", "") :: c.options) = none := by
    simp [options, List.lookup_append, List.lookup_cons, lookup_optional]
  rw [decodeLine, Invocation.ofArgs_of_scan rfl hscan, hverbose, hconfig, requestOf_options]
  · rfl
  · intro o ho
    obtain rfl := Option.some.inj ho
    rfl

/-- **A call whose version cannot be read is refused with the arguments.** -/
theorem ofArgs_decodeLine_eq_error {text : String} (htext : c.version = some text)
    (h : Version.ofText? text = none) :
    Invocation.ofArgs c.decodeLine = .error
      (.invalidValue text versionOpt.shown (CallFault.badVersion text).reason) := by
  have hknows : (Side.behind .decode).Knows versionOpt :=
    Side.knows_of_mem_opts (by simp [CommandName.opts])
  have hoptions : c.options.map attached = [("--calldata", c.calldata)].map attached ++
      attached (versionOpt.name, text) :: (optional "--to" c.toAddress ++
        optional "--tx-hash" c.txHash ++ optional "--value" c.value).map attached := by
    simp [options, optional, htext, versionOpt]
  have hcalldata : ∀ option ∈ [("--calldata", c.calldata)],
      (Side.behind .decode).Accepts option := by
    intro option hoption
    obtain rfl := List.mem_singleton.mp hoption
    exact Side.accepts_text "CALLDATA" _ (by simp [CommandName.opts])
  have hrefused : versionOpt.refusal text = some (CallFault.badVersion text).reason := by
    rw [refusal_versionOpt, h]
    rfl
  have hnodup : (([("--json", "")] ++ [("--calldata", c.calldata)]).map (·.1)).Nodup := by
    simp
  have hname : CommandName.ofText? "decode" = some .decode := rfl
  apply Invocation.ofArgs_of_scan_eq_error hname
  rw [scan_json, hoptions, Taken.scan_accepted _ hcalldata hnodup, Taken.scan_attached _ hknows rfl,
    give_eq_error rfl hrefused]
  rfl

/-- The command line asks for no configuration. -/
theorem config_of_ofArgs_decodeLine {i : Invocation} (h : Invocation.ofArgs c.decodeLine = .ok i) :
    i.config = none := by
  by_cases hversion : ∃ text, c.version = some text ∧ Version.ofText? text = none
  · obtain ⟨text, htext, hnone⟩ := hversion
    rw [ofArgs_decodeLine_eq_error htext hnone] at h
    cases h
  · have hread : ∀ text, c.version = some text → (Version.ofText? text).isSome = true := by
      intro text htext
      rw [Option.isSome_iff_ne_none]
      exact fun hnone => hversion ⟨text, htext, hnone⟩
    rw [ofArgs_decodeLine hread] at h
    obtain rfl := Except.ok.inj h
    rfl

/-! ## In a line of a file -/

variable (c)

/-- The call as the members of a JSON object. -/
def members : List (String × Document) :=
  [("calldata", .string c.calldata)] ++ shown "version" c.version .string ++
    shown "txHash" c.txHash .string ++ shown "to" c.toAddress .string ++
    shown "value" c.value .string

theorem nodup_members : (c.members.map (·.1)).Nodup := by
  have hall : (["calldata"] ++ ["version"] ++ ["txHash"] ++ ["to"] ++ ["value"]).Nodup := by decide
  have hsub : (c.members.map (·.1)).Sublist
      (["calldata"] ++ ["version"] ++ ["txHash"] ++ ["to"] ++ ["value"]) := by
    simp only [members, List.map_append]
    exact ((((List.Sublist.refl ["calldata"]).append (names_shown_sublist ..)).append
      (names_shown_sublist ..)).append (names_shown_sublist ..)).append (names_shown_sublist ..)
  exact hall.sublist hsub

/-- The members are texts, so they can be written as a JSON text. -/
theorem fits_members : Fits 1 (.object c.members) := by
  apply Fits.object
  intro m hm
  simp only [members, List.mem_append, List.mem_singleton, mem_shown] at hm
  rcases hm with (((rfl | ⟨_, -, rfl⟩) | ⟨_, -, rfl⟩) | ⟨_, -, rfl⟩) | ⟨_, -, rfl⟩
  all_goals exact Fits.string _

variable {c}

/-- **The members of a call are read as the call**, in whatever order they stand and whatever
members of other names there are. -/
theorem ofDocument?_eq_some {ms : List (String × Document)}
    (h : Rearranged BatchLine.memberNames c.members ms) :
    BatchLine.ofDocument? (.object ms) = some c.toLine := by
  have hnodup := c.nodup_members
  have hread (text : String) : asText? (.string text) = some text := rfl
  have hcalldata : required c.members "calldata" asText? = some c.calldata := by
    rw [required_eq_bind hnodup]
    simp [members, hread]
  have hversion : Document.optional c.members "version" asText? = some c.version := by
    apply optional_eq_some hnodup .string
    · simp [members, List.lookup_append, List.lookup_cons, lookup_shown]
    · exact fun text => rfl
  have htext (name : String) (value : Option String) (default : String)
      (hlookup : c.members.lookup name = value.map .string) :
      orElse c.members name default asText? = some (value.getD default) :=
    orElse_eq_some hnodup .string hlookup hread
  have hhash := htext "txHash" c.txHash "" (by
    simp [members, List.lookup_append, List.lookup_cons, lookup_shown])
  have hto := htext "to" c.toAddress "" (by
    simp [members, List.lookup_append, List.lookup_cons, lookup_shown])
  have hvalue := htext "value" c.value "0" (by
    simp [members, List.lookup_append, List.lookup_cons, lookup_shown])
  unfold BatchLine.ofDocument?
  simp only [members?, Option.bind_eq_bind, Option.bind_some]
  simp (disch := decide) only [h.required_eq, h.orElse_eq, h.optional_eq, hcalldata, hversion,
    hhash, hto, hvalue, Option.bind_some]
  rfl

end CallText

end RouterCalldata
