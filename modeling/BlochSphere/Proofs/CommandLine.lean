/-
The configuration that a command line leads to. The last value of a flag counts. The file is judged on its
own: what it says has to be valid whatever the command line says, and then the values of the command line are
laid over it as far as they are heeded, which a duration that is not positive and estimates that are switched
off are not. That holds however files are decoded, and however arguments are read as long as `FlagLaws` hold.
-/
import BlochSphere.CommandLine
import Mathlib

namespace BlochSphere.CommandLine

/-! ## Values that are given -/

/-- A value that a command line gives. -/
inductive Setting where
  | config (path : String)
  | gates (names : String)
  | duration (d : Duration)
  | estimates (b : Bool)

namespace Setting

/-- The options with the value in its place. -/
def make (o : Options) : Setting → Options
  | config path => { o with configPath := path }
  | gates names => { o with gates := names }
  | duration d => { o with duration := d }
  | estimates b => { o with estimates := b }

def path? : Setting → Option String
  | config path => some path
  | _ => none

def duration? : Setting → Option Duration
  | duration d => some d
  | _ => none

def estimates? : Setting → Option Bool
  | estimates b => some b
  | _ => none

/-- The last of some settings that `read` finds a value in. -/
def last {α : Type} (read : Setting → Option α) (l : List Setting) : Option α := (l.filterMap read).getLast?

theorem getD_last_cons {α : Type} (read : Setting → Option α) (s : Setting) (l : List Setting) (d : α) :
    (last read (s :: l)).getD d = (last read l).getD ((read s).getD d) := by
  unfold last
  cases h : read s with
  | none =>
    rw [List.filterMap_cons_none h]
    rfl
  | some a =>
    rw [List.filterMap_cons_some h, List.getLast?_cons]
    rfl

/-- An option that settings are made for has the last of its values. -/
theorem foldl_make {α : Type} {field : Options → α} {read : Setting → Option α}
    (h : ∀ o s, field (make o s) = (read s).getD (field o)) (l : List Setting) :
    ∀ o : Options, field (l.foldl make o) = (last read l).getD (field o) := by
  induction l with
  | nil => exact fun _ => rfl
  | cons s l ih =>
    intro o
    rw [List.foldl_cons, ih, getD_last_cons, h]

end Setting

/-- What is known of a way to read flags: `given` lists the values that a command line gives, and those of a
command line that is accepted are made one after the other. -/
structure FlagLaws (flags : List String → Except FlagError Request) (given : List String → List Setting) :
    Prop where
  made : ∀ args o, flags args = .ok (.run o) → o = (given args).foldl Setting.make .none

/-! ## Arguments from left to right -/

/-- The value of a flag, if it can be read. -/
def settingOf? (f : Flag) (value : String) : Option Setting :=
  match f with
  | .config => some (.config value)
  | .gates => some (.gates value)
  | .duration => (Duration.parse value).toOption.map .duration
  | .estimates => (boolOf? value).map .estimates

/-- The values that are given up to the end of the options. -/
def settings : List String → List Setting
  | [] => []
  | arg :: rest =>
    match Argument.ofString arg with
    | .terminator => []
    | .long name value =>
      match Flag.ofName? name with
      | none => []
      | some f =>
        match value, f, rest with
        | some value, f, rest => (settingOf? f value).toList ++ settings rest
        | none, .estimates, rest => .estimates true :: settings rest
        | none, f, value :: rest => (settingOf? f value).toList ++ settings rest
        | none, _, [] => []
    | _ => settings rest

theorem assign_ok {f : Flag} {value : String} {o o' : Options} (h : assign f value o = .ok o') :
    o' = (settingOf? f value).toList.foldl Setting.make o := by
  unfold assign at h
  unfold settingOf?
  cases f with
  | config => cases h; rfl
  | gates => cases h; rfl
  | duration =>
    cases hd : Duration.parse value with
    | error e => rw [hd] at h; cases h
    | ok d => rw [hd] at h; cases h; rfl
  | estimates =>
    cases hb : boolOf? value with
    | none => rw [hb] at h; cases h
    | some b => rw [hb] at h; cases h; rfl

theorem eq_foldl_of_parseFrom {o o' : Options} {args : List String} (h : parseFrom o args = .ok (.run o')) :
    o' = (settings args).foldl Setting.make o := by
  fun_induction parseFrom o args with
  | case1 =>
    cases h
    rfl
  | case2 o arg rest harg =>
    cases h
    simp only [settings, harg]
    rfl
  | case3 o arg rest harg ih =>
    simp only [settings, harg]
    exact ih h
  | case5 o arg rest letters harg _ ih =>
    simp only [settings, harg]
    exact ih h
  | case11 o arg name value f rest o₁ hassign harg hname ih =>
    simp only [settings, harg, hname, List.foldl_append]
    rw [← assign_ok hassign]
    exact ih h
  | case12 o arg name rest harg hname ih =>
    simp only [settings, harg, hname]
    exact ih h
  | case14 o arg name f value rest hf o₁ hassign harg hname ih =>
    have hsettings : settings (arg :: value :: rest) = (settingOf? f value).toList ++ settings rest := by
      cases f with
      | estimates => exact absurd rfl hf
      | _ => simp only [settings, harg, hname]
    rw [hsettings, List.foldl_append, ← assign_ok hassign]
    exact ih h
  -- everything else ends with an error or with the help text
  | _ => cases h

theorem flagLaws_parse : FlagLaws parse settings where
  made _ _ h := eq_foldl_of_parseFrom h

/-! ## The configuration -/

/-- Values that a command line gives for a configuration. -/
structure Overrides where
  duration : Option Duration
  estimates : Option Bool

namespace Overrides

/-- The last value of each flag. -/
def ofSettings (l : List Setting) : Overrides :=
  ⟨Setting.last Setting.duration? l, Setting.last Setting.estimates? l⟩

/-- A configuration with the values laid over it. -/
def onto (v : Overrides) (c : Config) : Config :=
  { c with
    rotationDuration := v.duration.getD c.rotationDuration
    showEstimates := v.estimates.getD c.showEstimates }

/-- The values without those that are not heeded. -/
def heeded (v : Overrides) : Overrides :=
  ⟨v.duration.filter (0 < ·), v.estimates.filter (· = true)⟩

theorem onto_eq_iff (v w : Overrides) (c : Config) : v.onto c = w.onto c ↔
    (v.onto c).rotationDuration = (w.onto c).rotationDuration ∧
    (v.onto c).showEstimates = (w.onto c).showEstimates := by
  simp [onto]

/-- Only a positive duration is heeded. -/
theorem rotationDuration_heeded (v : Overrides) (c : Config) : (v.heeded.onto c).rotationDuration =
    if 0 < v.duration.getD 0 then v.duration.getD 0 else c.rotationDuration := by
  obtain ⟨_ | d, estimates⟩ := v
  · rfl
  · simp only [heeded, onto, Option.filter_some, decide_eq_true_eq, Option.getD_some]
    split_ifs <;> rfl

/-- Estimates are only switched on. -/
theorem showEstimates_heeded (v : Overrides) (c : Config) :
    (v.heeded.onto c).showEstimates = (v.estimates.getD false || c.showEstimates) := by
  obtain ⟨duration, _ | _ | _⟩ := v <;> rfl

end Overrides

/-- What the file that is named last says over the defaults, judged by nothing yet. Without a file these are
the defaults. -/
def fileConfig (decode : Config.Decoder) (given : List Setting)
    (find : String → Except Config.Unreadable String) : Except Config.LoadError Config :=
  let path := (Setting.last Setting.path? given).getD ""
  if path = "" then .ok .default
  else
    match find path with
    | .error cause => .error (.unreadable path cause)
    | .ok text => decode .default path text

variable {decode : Config.Decoder} {find : String → Except Config.Unreadable String} {base : Config}

theorem overlay_foldl (l : List Setting) (c : Config) :
    (l.foldl Setting.make .none).overlay c = (Overrides.ofSettings l).heeded.onto c := by
  have hduration : (l.foldl Setting.make .none).duration = (Setting.last Setting.duration? l).getD 0 :=
    Setting.foldl_make (fun _ s => by cases s <;> rfl) l .none
  have hestimates : (l.foldl Setting.make .none).estimates = (Setting.last Setting.estimates? l).getD false :=
    Setting.foldl_make (fun _ s => by cases s <;> rfl) l .none
  generalize l.foldl Setting.make .none = o at hduration hestimates
  have honto : o.overlay c = Overrides.onto
      ⟨some (o.overlay c).rotationDuration, some (o.overlay c).showEstimates⟩ c := rfl
  rw [honto, Overrides.onto_eq_iff, Overrides.rotationDuration_heeded, Overrides.showEstimates_heeded]
  constructor
  · show (if 0 < o.duration then o.duration else c.rotationDuration) = _
    rw [hduration]
    rfl
  · show (o.estimates || c.showEstimates) = _
    rw [hestimates]
    rfl

theorem validate_eq_ok_iff (c : Config) : c.validate = .ok () ↔
    0 < c.rotationDuration ∧ 1 ≤ c.pathResolution ∧ 0 < c.frameInterval ∧ 0 ≤ c.shots := by
  unfold Config.validate
  rw [← Int64.not_le, ← Int64.not_le, ← Int.not_lt, ← Int.not_lt]
  split_ifs <;> simp_all

/-- No value that is heeded makes a configuration invalid. -/
theorem validate_onto (v : Overrides) (h : base.validate = .ok ()) : (v.heeded.onto base).validate = .ok () := by
  rw [validate_eq_ok_iff] at h ⊢
  refine ⟨?_, h.2⟩
  rw [v.rotationDuration_heeded]
  split_ifs with hd
  · exact hd
  · exact h.1

/-- The configuration of a file is judged before anything is laid over it, and then not refused any more. -/
theorem configure_eq {l : List Setting} (hfile : fileConfig decode l find = .ok base) :
    (l.foldl Setting.make .none).configure decode find = match base.validate with
      | .error e => .error (.invalid e)
      | .ok () => .ok ((Overrides.ofSettings l).heeded.onto base) := by
  have hpath : (l.foldl Setting.make .none).configPath = (Setting.last Setting.path? l).getD "" :=
    Setting.foldl_make (fun _ s => by cases s <;> rfl) l .none
  have honto := overlay_foldl l base
  unfold fileConfig at hfile
  rw [← hpath] at hfile
  generalize l.foldl Setting.make .none = o at hfile honto ⊢
  unfold Options.configure
  by_cases hempty : o.configPath = ""
  · -- the defaults are judged only with the command line laid over them, which never fails
    simp only [hempty, if_true, Except.ok.injEq] at hfile
    subst hfile
    have hdefault : Config.default.validate = .ok () := rfl
    simp only [hempty, BEq.rfl, if_true, honto, validate_onto _ hdefault, hdefault]
  · simp only [if_neg hempty] at hfile
    simp only [beq_iff_eq, if_neg hempty]
    cases hfound : find o.configPath with
    | error cause =>
      rw [hfound] at hfile
      cases hfile
    | ok text =>
      rw [hfound] at hfile
      simp only at hfile
      cases hvalid : base.validate with
      | error e => simp only [Config.loadBy, hfile, hvalid]
      | ok u => simp only [Config.loadBy, hfile, hvalid, honto, validate_onto _ hvalid]

/-- Laying over what is heeded is laying over what is given exactly if all of it is heeded. -/
theorem heeded_onto_eq_iff (v : Overrides) (h : base.validate = .ok ()) : v.heeded.onto base = v.onto base ↔
    (∀ d, v.duration = some d → 0 < d) ∧ (v.estimates = some false → base.showEstimates = false) := by
  have hpos := ((validate_eq_ok_iff base).1 h).1
  rw [Overrides.onto_eq_iff, Overrides.rotationDuration_heeded, Overrides.showEstimates_heeded]
  obtain ⟨duration, estimates⟩ := v
  refine and_congr ?_ ?_
  · cases duration with
    | none => simp [Overrides.onto]
    | some d =>
      simp only [Overrides.onto, Option.getD_some, Option.some.injEq, forall_eq']
      constructor
      · intro heq
        split_ifs at heq with hd
        · exact hd
        · rwa [← heq]
      · exact fun hd => if_pos hd
  · rcases estimates with _ | _ | _ <;> simp [Overrides.onto]

/-- A command line that is accepted gets past the configuration exactly if the file is valid by itself, and
then with the values that are heeded laid over it. -/
theorem outcome_judges_file_alone {r : Readers} {given : List String → List Setting}
    (laws : FlagLaws r.flags given) (args : List String) (find : String → Except Config.Unreadable String)
    {o : Options} (hargs : r.flags args = .ok (.run o)) {base : Config}
    (hfile : fileConfig r.file (given args) find = .ok base) :
    let v := Overrides.ofSettings (given args)
    ((∃ o' c, r.outcome args find = .ready o' c) ↔ base.validate = .ok ()) ∧
    (∀ o' c, r.outcome args find = .ready o' c → o' = o ∧ c = v.heeded.onto base ∧ c.validate = .ok ()) ∧
    (∀ e, base.validate = .error e → r.outcome args find = .badConfig (.invalid e)) ∧
    (base.validate = .ok () →
      (v.heeded.onto base = v.onto base ↔
        (∀ d, v.duration = some d → 0 < d) ∧ (v.estimates = some false → base.showEstimates = false))) := by
  intro v
  have hconfigure := configure_eq hfile
  rw [← laws.made args o hargs] at hconfigure
  cases hvalid : base.validate with
  | error e =>
    rw [hvalid] at hconfigure
    have houtcome : r.outcome args find = .badConfig (.invalid e) := by
      simp only [Readers.outcome, hargs, hconfigure]
    rw [houtcome]
    refine ⟨by simp, by simp, ?_, by simp⟩
    intro e' he
    cases he
    rfl
  | ok u =>
    rw [hvalid] at hconfigure
    have houtcome : r.outcome args find = .ready o (v.heeded.onto base) := by
      simp only [Readers.outcome, hargs, hconfigure]
      rfl
    rw [houtcome]
    refine ⟨by simp, ?_, by simp, fun _ => heeded_onto_eq_iff _ hvalid⟩
    intro o' c heq
    cases heq
    exact ⟨rfl, rfl, validate_onto _ hvalid⟩

/-- The options of a request to run. -/
def options? : Except FlagError Request → Option Options
  | .ok (.run o) => some o
  | _ => none

theorem eq_of_options? {r : Except FlagError Request} {o : Options} (h : options? r = some o) :
    r = .ok (.run o) := by
  rcases r with e | _ | o'
  · cases h
  · cases h
  · cases h
    rfl

/-- A file that sets the shots, with both of the command line's values laid over it. -/
theorem outcome_judges_file_alone_over_file :
    let args := ["--config", "bloch.yaml", "--duration=-1s", "--estimates", "--duration", "2s"]
    let find : String → Except Config.Unreadable String := fun _ => .ok "shots: 8"
    let o : Options := ⟨"bloch.yaml", "", 2000000000, true⟩
    parse args = .ok (.run o) ∧
    fileConfig Config.decode (settings args) find = .ok { Config.default with shots := 8 } ∧
    outcome args find = .ready o
      { Config.default with rotationDuration := 2000000000, shots := 8, showEstimates := true } := by
  intro args find o
  have hargs : parse args = .ok (.run o) := eq_of_options? (by decide +kernel)
  have hpath : Setting.last Setting.path? (settings args) = some "bloch.yaml" := by decide +kernel
  have hfile : fileConfig Config.decode (settings args) find = .ok { Config.default with shots := 8 } := by
    have hdecode : Config.decode .default "bloch.yaml" "shots: 8" = .ok { Config.default with shots := 8 } := by
      cbv
    unfold fileConfig
    rw [hpath]
    exact hdecode
  have hduration : Setting.last Setting.duration? (settings args) = some 2000000000 := by decide +kernel
  have hestimates : Setting.last Setting.estimates? (settings args) = some true := by decide +kernel
  have honto : (Overrides.ofSettings (settings args)).heeded.onto { Config.default with shots := 8 } =
      { Config.default with rotationDuration := 2000000000, shots := 8, showEstimates := true } := by
    unfold Overrides.ofSettings
    rw [hduration, hestimates]
    rfl
  obtain ⟨hready, hvalue, -⟩ :=
    outcome_judges_file_alone (r := Readers.standard) flagLaws_parse args find hargs hfile
  obtain ⟨o', c, houtcome⟩ := hready.2 rfl
  obtain ⟨rfl, rfl, -⟩ := hvalue o' c houtcome
  exact ⟨hargs, hfile, by rw [← honto]; exact houtcome⟩

/-- Laid over the defaults, a negative duration would be refused; but it is not laid over them. -/
theorem negative_duration_not_refused :
    let args := ["--duration=-1s"]
    let find : String → Except Config.Unreadable String := fun _ => .error .missing
    let o : Options := ⟨"", "", -1000000000, false⟩
    parse args = .ok (.run o) ∧ fileConfig Config.decode (settings args) find = .ok .default ∧
    ((Overrides.ofSettings (settings args)).onto .default).validate = .error (.rotationDuration (-1000000000)) ∧
    outcome args find = .ready o .default := by
  intro args find o
  have hargs : parse args = .ok (.run o) := eq_of_options? (by decide +kernel)
  have hduration : Setting.last Setting.duration? (settings args) = some (-1000000000) := by decide +kernel
  have hpath : Setting.last Setting.path? (settings args) = none := by decide +kernel
  refine ⟨hargs, ?_, ?_, ?_⟩
  · unfold fileConfig
    rw [hpath]
    rfl
  · unfold Overrides.ofSettings Overrides.onto
    rw [hduration]
    rfl
  · show Readers.standard.outcome args find = _
    have hflags : Readers.standard.flags args = .ok (.run o) := hargs
    unfold Readers.outcome
    rw [hflags]
    rfl

end BlochSphere.CommandLine
