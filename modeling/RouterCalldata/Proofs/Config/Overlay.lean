import RouterCalldata.Proofs.Config.Form

/-!
# Configurations overlay the defaults

A configuration may be written in part: whole sections may be missing, and single members of the
sections that are there.  What is read is then the default with the part laid over it.

The defaults are told twice.  A section that is missing as a whole is taken from the default
configuration, while a member that is missing in a section that is there has the default that its
reader names.  So there are two ways to leave out a section, by itself or with all its members, and
they come to the same only as long as the two tellings agree.  The log's section is even told a
third time, by the reader of a set-up of the log on its own.

## Main definitions

* `Document.IsPart`: an object without some of its members, in any order and among others of names
  that are not known;
* `Config.Kept`, `Config.IsPart`: the same at both levels of a configuration;
* `Decoder.overlay`, `Batch.Config.overlay`, `LogSettings.overlay`, `Config.overlay`: the defaults
  with what is kept laid over them;
* `Config.Agrees`: configurations that differ in the order of the components at most.

## Main results

* `Document.orElse_part`: a member that is kept is read as before, any other has its default;
* `Decoder.ofDocument?_part`, `Batch.Config.ofDocument?_part`, `LogSettings.ofDocument?_part`,
  `Config.ofDocument?_part`: sections and whole configurations;
* `LogConfig.ofSettings_ofDocument?`: both readers of the log's section;
* `Config.read_overlay`: all of it.
-/

namespace RouterCalldata

open Document

/-! ## Objects in part -/

namespace Document

/-- `part` holds the members of the object `whole` whose names are kept, in any order and among
further members of names that are not known. -/
def IsPart (known : List String) (kept : String → Bool) (whole part : Document) : Prop :=
  ∃ ms ms', whole = .object ms ∧ part = .object ms' ∧
    Rearranged known (ms.filter fun m => kept m.1) ms'

variable {α : Type} {known : List String} {kept : String → Bool} {ms ms' : List (String × Document)}
  {name : String} {read : Document → Option α} {value default : α}

/-- A member that is kept is found as before, and any other is not found. -/
theorem member?_filter (ms : List (String × Document)) (kept : String → Bool) (name : String) :
    member? (ms.filter fun m => kept m.1) name =
      if kept name then member? ms name else some none := by
  unfold member?
  rw [List.filter_filter]
  cases hkept : kept name with
  | true =>
    have hsame : ms.filter (fun m => m.1 == name && kept m.1) = ms.filter (·.1 == name) := by
      apply List.filter_congr
      intro m _
      by_cases hm : m.1 = name
      · simp [hm, hkept]
      · simp [hm]
    rw [hsame, if_pos rfl]
  | false =>
    have hnone : ms.filter (fun m => m.1 == name && kept m.1) = [] := by
      apply List.filter_eq_nil_iff.mpr
      intro m _ hm
      obtain ⟨hname, hm⟩ := (Bool.and_eq_true _ _).mp hm
      rw [eq_of_beq hname, hkept] at hm
      exact absurd hm (by decide)
    rw [hnone, if_neg (by decide)]

/-- **A member that is kept is read as before, any other has its default.** -/
theorem orElse_part (h : Rearranged known (ms.filter fun m => kept m.1) ms') (hname : name ∈ known)
    (hread : orElse ms name default read = some value) :
    orElse ms' name default read = some (if kept name then value else default) := by
  rw [h.orElse_eq hname]
  unfold orElse at hread ⊢
  rw [member?_filter]
  cases kept name with
  | true => exact hread
  | false => rfl

end Document

/-! ## Sections -/

variable {kept : String → Bool} {part : Document}

namespace Decoder

/-- The default with the members that are kept laid over it. -/
def overlay (kept : String → Bool) (d : Decoder) : Decoder where
  maxMulticallDepth :=
    if kept "max_multicall_depth" then d.maxMulticallDepth else Decoder.default.maxMulticallDepth
  exchange := if kept "exchange" then d.exchange else Decoder.default.exchange

theorem ofDocument?_part {d : Decoder} (h : IsPart memberNames kept d.toDocument part) :
    ofDocument? part = some (d.overlay kept) := by
  obtain ⟨_, ms, hms, rfl, hpart⟩ := h
  obtain rfl := object.inj hms
  have hdepth : orElse ms "max_multicall_depth" Decoder.default.maxMulticallDepth asNat? =
      some (d.overlay kept).maxMulticallDepth :=
    orElse_part hpart (by decide) rfl
  have hexchange : orElse ms "exchange" Decoder.default.exchange asText? =
      some (d.overlay kept).exchange :=
    orElse_part hpart (by decide) rfl
  unfold ofDocument?
  rw [members?, Option.bind_eq_bind, Option.bind_some, hdepth, hexchange]
  rfl

/-- A section that is missing is one of which no member is kept. -/
theorem overlay_and (b : Bool) (kept : String → Bool) (d : Decoder) :
    d.overlay (fun m => b && kept m) = if b then d.overlay kept else .default := by
  cases b <;> rfl

end Decoder

namespace Batch.Config

/-- The default with the members that are kept laid over it. -/
def overlay (kept : String → Bool) (c : Batch.Config) : Batch.Config where
  chunkSize := if kept "chunk_size" then c.chunkSize else Batch.Config.default.chunkSize
  errorMode := if kept "error_mode" then c.errorMode else Batch.Config.default.errorMode

theorem ofDocument?_part {c : Batch.Config} (h : IsPart memberNames kept c.toDocument part) :
    ofDocument? part = some (c.overlay kept) := by
  obtain ⟨_, ms, hms, rfl, hpart⟩ := h
  obtain rfl := object.inj hms
  have hsize : orElse ms "chunk_size" Batch.Config.default.chunkSize asNat? =
      some (c.overlay kept).chunkSize :=
    orElse_part hpart (by decide) rfl
  have hmode : orElse ms "error_mode" .skip ErrorMode.ofDocument? =
      some (c.overlay kept).errorMode :=
    orElse_part hpart (by decide) (ErrorMode.ofDocument?_toDocument c.errorMode)
  unfold ofDocument?
  rw [members?, Option.bind_eq_bind, Option.bind_some, hsize, hmode]
  rfl

/-- A section that is missing is one of which no member is kept. -/
theorem overlay_and (b : Bool) (kept : String → Bool) (c : Batch.Config) :
    c.overlay (fun m => b && kept m) = if b then c.overlay kept else .default := by
  cases b <;> rfl

end Batch.Config

namespace LogSettings

/-- The default with the members that are kept laid over it. -/
def overlay (kept : String → Bool) (s : LogSettings) : LogSettings where
  level := if kept "level" then s.level else LogSettings.default.level
  components := if kept "components" then s.components else LogSettings.default.components
  json := if kept "json" then s.json else LogSettings.default.json

theorem ofDocument?_part {s : LogSettings} (h : IsPart memberNames kept s.toDocument part) :
    ofDocument? part = some (s.overlay kept) := by
  obtain ⟨_, ms, hms, rfl, hpart⟩ := h
  obtain rfl := object.inj hms
  have hlevel : orElse ms "level" LogSettings.default.level asText? =
      some (s.overlay kept).level :=
    orElse_part hpart (by decide) rfl
  have hcomponents : orElse ms "components" .empty NameMap.ofDocument? =
      some (s.overlay kept).components :=
    orElse_part hpart (by decide) s.components.ofDocument?_toDocument
  have hjson : orElse ms "json" false asBool? = some (s.overlay kept).json :=
    orElse_part hpart (by decide) rfl
  unfold ofDocument?
  rw [members?, Option.bind_eq_bind, Option.bind_some, hlevel, hcomponents, hjson]
  rfl

/-- A section that is missing is one of which no member is kept. -/
theorem overlay_and (b : Bool) (kept : String → Bool) (s : LogSettings) :
    s.overlay (fun m => b && kept m) = if b then s.overlay kept else .default := by
  cases b <;> rfl

end LogSettings

/-- **Both readers of the log's section read the same set-up**, and refuse the same documents. -/
theorem LogConfig.ofSettings_ofDocument? (d : Document) :
    (LogSettings.ofDocument? d).map ofSettings = ofDocument? d := by
  unfold LogSettings.ofDocument? ofDocument?
  simp only [Option.bind_eq_bind, Option.map_bind, Function.comp_def]
  rfl

/-! ## Whole configurations -/

namespace Config

/-- What is kept of a configuration: sections, and members of each section. -/
structure Kept where
  sections : String → Bool
  members : String → String → Bool

/-- Whether a member is kept, which takes that its section is kept. -/
def Kept.keeps (kept : Kept) (name member : String) : Bool :=
  kept.sections name && kept.members name member

/-- The default with the members that are kept laid over it. -/
def overlay (kept : Kept) (c : Config) : Config where
  decoder := c.decoder.overlay (kept.keeps "decoder")
  batch := c.batch.overlay (kept.keeps "batch")
  log := c.log.overlay (kept.keeps "log")

/-- `part` is written from the sections and members of `c` that are kept, on both levels in any
order and among further members of names that are not known. -/
def IsPart (kept : Kept) (c : Config) (part : Document) : Prop :=
  ∃ decoder batch log,
    Document.IsPart Decoder.memberNames (kept.members "decoder") c.decoder.toDocument decoder ∧
    Document.IsPart Batch.Config.memberNames (kept.members "batch") c.batch.toDocument batch ∧
    Document.IsPart LogSettings.memberNames (kept.members "log") c.log.toDocument log ∧
    Document.IsPart memberNames kept.sections
      (.object [("decoder", decoder), ("batch", batch), ("log", log)]) part

/-- The two differ in the order of the components at most. -/
structure Agrees (c c' : Config) : Prop where
  decoder_eq : c.decoder = c'.decoder
  batch_eq : c.batch = c'.batch
  level_eq : c.log.level = c'.log.level
  json_eq : c.log.json = c'.log.json
  get?_eq : ∀ name, c.log.components.get? name = c'.log.components.get? name

variable {kept : Kept} {c c' : Config}

/-- **A configuration that is written in part is read as the part laid over the defaults.** -/
theorem ofDocument?_part (h : c.IsPart kept part) : ofDocument? part = some (c.overlay kept) := by
  obtain ⟨decoder, batch, log, hdecoder, hbatch, hlog, _, ms, hms, rfl, hpart⟩ := h
  obtain rfl := object.inj hms
  have hdecoder' : orElse ms "decoder" .default Decoder.ofDocument? =
      some (c.overlay kept).decoder := by
    unfold overlay Kept.keeps
    rw [Decoder.overlay_and]
    exact orElse_part hpart (by decide) (Decoder.ofDocument?_part hdecoder)
  have hbatch' : orElse ms "batch" .default Batch.Config.ofDocument? =
      some (c.overlay kept).batch := by
    unfold overlay Kept.keeps
    rw [Batch.Config.overlay_and]
    exact orElse_part hpart (by decide) (Batch.Config.ofDocument?_part hbatch)
  have hlog' : orElse ms "log" .default LogSettings.ofDocument? = some (c.overlay kept).log := by
    unfold overlay Kept.keeps
    rw [LogSettings.overlay_and]
    exact orElse_part hpart (by decide) (LogSettings.ofDocument?_part hlog)
  unfold ofDocument?
  rw [members?, Option.bind_eq_bind, Option.bind_some, hdecoder', hbatch', hlog']
  rfl

/-- Agreement is kept under an overlay. -/
theorem Agrees.overlay (h : c.Agrees c') (kept : Kept) :
    (c.overlay kept).Agrees (c'.overlay kept) where
  decoder_eq := congrArg (Decoder.overlay _) h.decoder_eq
  batch_eq := congrArg (Batch.Config.overlay _) h.batch_eq
  level_eq := by
    show ite _ _ _ = ite _ _ _
    rw [h.level_eq]
  json_eq := by
    show ite _ _ _ = ite _ _ _
    rw [h.json_eq]
  get?_eq name := by
    show NameMap.get? (ite _ _ _) name = NameMap.get? (ite _ _ _) name
    by_cases hkept : kept.keeps "log" "components" = true
    · rw [if_pos hkept, if_pos hkept, h.get?_eq]
    · rw [if_neg hkept, if_neg hkept]

/-- **Configurations overlay the defaults.**  Of a configuration that is written in part, in
whatever order and among whatever other members, every member that is kept is read as it was
written and every other one has its default, and configurations that differ in the order of the
components at most do so after that as well.  What is written as a whole is read back as it is.
The log's section gives one and the same set-up of the log, whether it is read as a part of a
configuration or on its own. -/
theorem read_overlay (c : Config) :
    (∀ kept part, c.IsPart kept part →
      ofDocument? part = some (c.overlay kept) ∧
        ∀ text, Document.ofJson? text = some part → ofJson? text = some (c.overlay kept)) ∧
      (∀ c' kept, c.Agrees c' → (c.overlay kept).Agrees (c'.overlay kept)) ∧
      ofDocument? c.toDocument = some c ∧
      ∀ d, (LogSettings.ofDocument? d).map LogConfig.ofSettings = LogConfig.ofDocument? d := by
  refine ⟨?_, ?_, readsBack.read_write c trivial, LogConfig.ofSettings_ofDocument?⟩
  · intro kept part hpart
    have hread := ofDocument?_part hpart
    refine ⟨hread, ?_⟩
    intro text htext
    rw [ofJson?, htext]
    exact hread
  · intro c' kept hagrees
    exact hagrees.overlay kept

/-- A configuration without its section on batches and without the decoder's label, turned round
on both levels and with a member of a name that is not known in each object. -/
theorem read_overlay_withoutBatchAndLabel :
    let settings : LogSettings := {
      level := "debug"
      components := { entries := [("batch", "warn"), ("decoder", "trace")] }
      json := true }
    let turned : LogSettings := { settings with
      components := { entries := [("decoder", "trace"), ("batch", "warn")] } }
    let c : Config := {
      decoder := { maxMulticallDepth := 2, exchange := "Label" }
      batch := { chunkSize := 5, errorMode := .collect }
      log := settings }
    let kept : Kept := {
      sections := fun name => name != "batch"
      members := fun _ member => member != "exchange" }
    let log : Document := .object [("color", .null), ("json", .bool true),
      ("components", settings.components.toDocument), ("level", .string "debug")]
    let decoder : Document := .object [("exchanges", .array []),
      ("max_multicall_depth", .number (.nat 2))]
    let part : Document := .object [("note", .null), ("log", log), ("decoder", decoder)]
    c.IsPart kept part ∧
      ofDocument? part = some { Config.default with
        decoder := { maxMulticallDepth := 2, exchange := "Uniswap" }
        log := settings } ∧
      c.Agrees { c with log := turned } ∧
      (c.overlay kept).Agrees ({ c with log := turned }.overlay kept) := by
  intro settings turned c kept log decoder part
  obtain ⟨hread, hagrees, -, -⟩ := c.read_overlay
  have hdecoder : Document.IsPart Decoder.memberNames (kept.members "decoder")
      c.decoder.toDocument decoder :=
    ⟨_, _, rfl, rfl, .turned (by decide) (.array (by simp)) _⟩
  have hlog : Document.IsPart LogSettings.memberNames (kept.members "log")
      c.log.toDocument log :=
    ⟨_, _, rfl, rfl, .turned (by decide) .null _⟩
  have hpart : c.IsPart kept part :=
    ⟨decoder, _, log, hdecoder, ⟨_, _, rfl, rfl, .refl _ _⟩, hlog,
      _, _, rfl, rfl, .turned (by decide) .null _⟩
  have hturned : c.Agrees { c with log := turned } := by
    refine ⟨rfl, rfl, rfl, rfl, ?_⟩
    intro name
    by_cases hbatch : name = "batch"
    · rw [hbatch]
      rfl
    · show List.lookup name _ = List.lookup name _
      simp [settings, turned, c, List.lookup_cons, beq_false_of_ne hbatch]
  exact ⟨hpart, (hread kept part hpart).1, hturned, hagrees _ kept hturned⟩

end Config

end RouterCalldata
