import Mathlib.Data.List.Nodup
import Mathlib.Data.List.TakeWhile
import RouterCalldata.Command.Program

/-!
# Options with their values attached

A value that is attached to its option by an equals sign is taken as it is, also where it starts
with a dash or is empty.  So any texts can be given to a command in this way, and what it is asked
for are these texts.

## Main definitions

* `attached`: an option with its value, as one argument;
* `Side.Knows`: an option that is known by its long name;
* `Side.Accepts`: an option with a value that is not refused;
* `Invocation.underConfig`: a command line with the path of a configuration in front.

## Main results

* `Side.knows_of_mem_opts`: a command knows its own options;
* `Taken.scan_accepted`: options that are accepted are all given;
* `Invocation.ofArgs_of_scan`: a command with all its options behind it;
* `Invocation.ofArgs_underConfig`: a configuration in front changes nothing else.
-/

namespace RouterCalldata

/-- An option with its value attached, as one argument. -/
def attached (option : String × String) : String := option.1 ++ "=" ++ option.2

theorem toList_attached (name value : String) :
    (attached (name, value)).toList = name.toList ++ '=' :: value.toList := by
  simp [attached]

theorem bne_of_equals_not_mem {cs : List Char} (h : '=' ∉ cs) : ∀ c ∈ cs, (c != '=') = true :=
  fun _ hc => bne_iff_ne.mpr (ne_of_mem_of_not_mem hc h)

theorem cutOption_attached {name : String} (h : '=' ∉ name.toList) (value : String) :
    cutOption (attached (name, value)) = (name, some value) := by
  have hname := bne_of_equals_not_mem h
  unfold cutOption
  rw [toList_attached, List.takeWhile_append_of_pos hname, List.dropWhile_append_of_pos hname]
  simp

/-- The side knows the option under its long name. -/
structure Side.Knows (side : Side) (o : Opt) : Prop where
  prefix_name : "--".toList <+: o.name.toList
  equals_not_mem : '=' ∉ o.name.toList
  name_ne : o.name ≠ "--"
  lookup_endings : side.endings.lookup o.name = none
  find?_opts : side.opts.find? (·.name == Taken.longName o.name) = some o

namespace Taken

variable {side : Side} {o : Opt} (given : Given)

/-- A long option is looked at with what is attached to it. -/
theorem scan_of_cut {arg : String} {value : Option String} (hdashes : "--".toList <+: arg.toList)
    (hne : arg ≠ "--") (hcut : cutOption arg = (o.name, value)) (t : Taken) (rest : List String) :
    t.scan side (arg :: rest) =
      (do (← t.option side o.name value).scan side rest) := by
  have hstarts (p : String) (hp : p.toList <+: "--".toList) : arg.startsWith p = true := by
    rw [String.startsWith_string_iff]
    exact hp.trans hdashes
  have hdash : arg ≠ "-" := by
    rintro rfl
    exact absurd hdashes (by decide)
  have hlook : looksLikeOption arg = true := by
    simp [looksLikeOption, hstarts "-" (by decide), hdash]
  rw [scan.eq_def]
  dsimp only
  rw [if_neg hne, if_pos hlook, dashed, if_pos (hstarts "--" (List.prefix_refl _)), hcut]

/-- An option with its value attached is given at once, if the value is not refused. -/
theorem scan_attached (h : side.Knows o) (hplace : o.placeholder.isSome = true)
    (value : String) (rest : List String) :
    scan ⟨given, none⟩ side (attached (o.name, value) :: rest) =
      (do scan ⟨← give side.usage given o value, none⟩ side rest) := by
  obtain ⟨p, hp⟩ := Option.isSome_iff_exists.mp hplace
  have hdashes : "--".toList <+: (attached (o.name, value)).toList := by
    rw [toList_attached]
    exact h.prefix_name.trans (List.prefix_append _ _)
  have hne : attached (o.name, value) ≠ "--" := by
    intro heq
    have hmem : '=' ∈ (attached (o.name, value)).toList := by simp [toList_attached]
    rw [heq] at hmem
    exact absurd hmem (by decide)
  rw [scan_of_cut hdashes hne (cutOption_attached h.equals_not_mem value)]
  simp only [option, h.lookup_endings, h.find?_opts, hp]
  show (give side.usage given o value >>= _) >>= _ = give side.usage given o value >>= _
  cases give side.usage given o value <;> rfl

/-- A flag is given at once. -/
theorem scan_flag (h : side.Knows o) (hplace : o.placeholder = none) (rest : List String) :
    scan ⟨given, none⟩ side (o.name :: rest) =
      (do scan ⟨← give side.usage given o "", none⟩ side rest) := by
  have hcut : cutOption o.name = (o.name, none) := by
    have hname := bne_of_equals_not_mem h.equals_not_mem
    unfold cutOption
    rw [List.takeWhile_eq_self_iff.mpr hname, List.dropWhile_eq_nil_iff.mpr hname]
    simp
  rw [scan_of_cut h.prefix_name h.name_ne hcut]
  simp only [option, h.lookup_endings, h.find?_opts, hplace]
  show (give side.usage given o "" >>= _) >>= _ = give side.usage given o "" >>= _
  cases give side.usage given o "" <;> rfl

end Taken

/-- Behind the name of a command all its options are known. -/
theorem Side.knows_of_mem_opts {command : CommandName} {o : Opt} (h : o ∈ command.opts) :
    (Side.behind command).Knows o := by
  cases command
  all_goals
    simp only [CommandName.opts, List.mem_cons, List.not_mem_nil, or_false] at h
  case decode =>
    rcases h with rfl | rfl | rfl | rfl | rfl | rfl
    all_goals exact ⟨by decide, by decide, by decide, rfl, rfl⟩
  case methods =>
    rcases h with rfl | rfl
    all_goals exact ⟨by decide, by decide, by decide, rfl, rfl⟩
  case batch =>
    rcases h with rfl | rfl | rfl
    all_goals exact ⟨by decide, by decide, by decide, rfl, rfl⟩
  case test =>
    subst h
    exact ⟨by decide, by decide, by decide, rfl, rfl⟩

/-! ## Values -/

/-- An option that has not been given is given, if its value is not refused. -/
theorem give_eq_ok {usage value : String} {given : Given} {o : Opt}
    (hnew : given.lookup o.name = none) (hvalue : o.refusal value = none) :
    give usage given o value = .ok (given ++ [(o.name, value)]) := by
  simp [give, hnew, hvalue]

theorem give_eq_error {usage value reason : String} {given : Given} {o : Opt}
    (hnew : given.lookup o.name = none) (hvalue : o.refusal value = some reason) :
    give usage given o value = .error (.invalidValue value o.shown reason) := by
  simp [give, hnew, hvalue]

/-- The option, with a value that is not refused, can be given on the side. -/
def Side.Accepts (side : Side) (option : String × String) : Prop :=
  ∃ o : Opt, side.Knows o ∧ o.placeholder.isSome = true ∧ o.name = option.1 ∧
    o.refusal option.2 = none

/-- An option that takes any text is accepted. -/
theorem Side.accepts_text {command : CommandName} {name : String} (placeholder value : String)
    (h : Opt.text name placeholder ∈ command.opts) : (Side.behind command).Accepts (name, value) :=
  ⟨.text name placeholder, Side.knows_of_mem_opts h, rfl, rfl, rfl⟩

theorem Given.lookup_eq_none {given : Given} {name : String} (h : name ∉ given.map (·.1)) :
    given.lookup name = none := by
  rw [List.lookup_eq_none_iff]
  intro option hoption
  have hne : name ≠ option.1 := by
    rintro rfl
    exact h (List.mem_map.mpr ⟨option, hoption, rfl⟩)
  simpa using hne

/-- **Options that are accepted and of different names are all given**, in the order in which
they stand. -/
theorem Taken.scan_accepted {side : Side} (given : Given) {options : Given}
    (h : ∀ option ∈ options, side.Accepts option) (hnodup : ((given ++ options).map (·.1)).Nodup)
    (rest : List String) :
    scan ⟨given, none⟩ side (options.map attached ++ rest) =
      scan ⟨given ++ options, none⟩ side rest := by
  -- each option has to be new among those given before it, so what is given grows along
  induction options generalizing given with
  | nil => simp
  | cons option options ih =>
    obtain ⟨o, hknows, hplace, hname, hvalue⟩ := h option List.mem_cons_self
    have hnew : given.lookup o.name = none := by
      apply Given.lookup_eq_none
      intro hmem
      rw [hname] at hmem
      rw [List.map_append, List.map_cons] at hnodup
      exact List.disjoint_of_nodup_append hnodup hmem List.mem_cons_self
    have hnodup' : ((given ++ [option] ++ options).map (·.1)).Nodup := by simpa using hnodup
    have hrest := ih (given ++ [option]) (fun x hx => h x (List.mem_cons_of_mem _ hx)) hnodup'
    have hoption : (o.name, option.2) = option := by rw [hname]
    rw [List.map_cons, List.cons_append, ← hoption, scan_attached _ hknows hplace,
      give_eq_ok hnew hvalue, hoption]
    show scan ⟨given ++ [option], none⟩ side _ = _
    simpa using hrest

/-! ## Command lines without options in front -/

namespace Invocation

variable {name : String} {command : CommandName} {rest : List String}

/-- The name of a command is no option. -/
theorem scan_name (h : CommandName.ofText? name = some command) (given : Given)
    (rest : List String) :
    Taken.scan ⟨given, none⟩ .front (name :: rest) = .ok (⟨given, none⟩, some (name, rest)) := by
  have hplain : looksLikeOption name = false ∧ name ≠ "--" := by
    unfold CommandName.ofText? at h
    split_ifs at h with h1 h2 h3 h4 h5
    all_goals
      subst name
      simp [looksLikeOption]
  rw [Taken.scan.eq_def]
  dsimp only
  rw [if_neg hplain.2, hplain.1]
  rfl

theorem scan_front (h : CommandName.ofText? name = some command) (rest : List String) :
    Taken.start.scan .front (name :: rest) = .ok (.start, some (name, rest)) :=
  scan_name h [] rest

theorem ofArgs_of_scan_eq_error (h : CommandName.ofText? name = some command) {e : UsageError}
    (hscan : Taken.start.scan (.behind command) rest = .error e) :
    ofArgs (name :: rest) = .error e := by
  unfold ofArgs
  rw [scan_front h]
  simp only [bind, Except.bind, h, hscan]

/-- **A command with all its options behind it** makes the request of these options. -/
theorem ofArgs_of_scan (h : CommandName.ofText? name = some command) {given : Given}
    (hscan : Taken.start.scan (.behind command) rest = .ok (⟨given, none⟩, none))
    (hrequired : ∀ o, command.requiredOpt? = some o → (given.lookup o.name).isSome = true) :
    ofArgs (name :: rest) = .ok {
      verbose := (given.lookup "--verbose").isSome
      config := given.lookup "--config"
      request := requestOf given command } := by
  unfold ofArgs
  rw [scan_front h]
  simp only [bind, Except.bind, h, hscan, Taken.settle]
  cases hopt : command.requiredOpt? with
  | none => simp [Taken.start, pure, Except.pure]
  | some o =>
    have hthere := Option.isSome_iff_ne_none.mp (hrequired o hopt)
    simp [Taken.start, pure, Except.pure, hthere]

/-! ## Command lines with a configuration in front -/

/-- A command line behind the path of a configuration, if there is one. -/
def underConfig (path : Option String) (args : List String) : List String :=
  path.toList.map (fun path => attached ("--config", path)) ++ args

/-- The path of a configuration is given at once. -/
theorem scan_config (path : String) (rest : List String) :
    Taken.start.scan .front (attached ("--config", path) :: rest) =
      Taken.scan ⟨[("--config", path)], none⟩ .front rest := by
  have hknows : Side.front.Knows (.text "--config" "CONFIG") :=
    ⟨by decide, by decide, by decide, rfl, rfl⟩
  have hscan := Taken.scan_attached [] hknows rfl path rest
  rw [give_eq_ok rfl rfl] at hscan
  exact hscan

/-- **A configuration in front of a command** is the one that is loaded, unless there is one behind
the command too, and changes nothing else. -/
theorem ofArgs_underConfig (h : CommandName.ofText? name = some command) (path : Option String)
    (rest : List String) :
    ofArgs (underConfig path (name :: rest)) =
      (ofArgs (name :: rest)).map fun i => { i with config := i.config.or path } := by
  cases path with
  | none =>
    show ofArgs (name :: rest) = _
    cases ofArgs (name :: rest) with
    | error e => rfl
    | ok i => simp [Except.map]
  | some path =>
    show ofArgs (attached ("--config", path) :: name :: rest) = _
    unfold ofArgs
    rw [scan_config, scan_name h, scan_front h]
    simp only [bind, Except.bind, h]
    cases Taken.start.scan (Side.behind command) rest with
    | error e => rfl
    | ok taken =>
      obtain ⟨behind, extra⟩ := taken
      cases extra with
      | some extra => rfl
      | none =>
        dsimp only
        cases behind.settle (Side.behind command) with
        | error e => rfl
        | ok given =>
          have hready : (Except.ok (ε := UsageError) (Invocation.mk
              (false || (given.lookup "--verbose").isSome)
              ((given.lookup "--config").or (some path)) (requestOf given command))) =
            (Except.ok (Invocation.mk (false || (given.lookup "--verbose").isSome)
              ((given.lookup "--config").or none) (requestOf given command))).map
                fun i => { i with config := i.config.or (some path) } := by
            simp [Except.map]
          dsimp only
          cases command.requiredOpt? with
          | none => exact hready
          | some o =>
            dsimp only
            split
            · rfl
            · exact hready

end Invocation

end RouterCalldata
