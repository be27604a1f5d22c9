import StreamSql.CommandLine.Run
import StreamSql.Proofs.Documents.Reading

/-!
# The configuration of a run

A configuration is made in stages: it starts from a file or from the default one, is overridden by
the environment, pointed to a URL, and has to be valid. Each stage can fail, and a run has a valid
configuration exactly where none of them does (`exists_configured`, `Unconfigured.not_valid`).
-/
namespace StreamSql.CommandLine

section Stages

variable (around : Surroundings) (path url : Option String)

/-- The configuration that a run starts from: the default one, or that of a file. -/
inductive StartsFrom : Option String → Config → Prop
  | default : StartsFrom none {}
  | file {path text : String} {config : Config} (readable : around.files path = .ok text)
      (accepted : around.configReader text = .ok config) : StartsFrom (some path) config

/-- Where a configuration points once a URL is given. -/
inductive Points : Option String → Config → Config → Prop
  | unchanged {config : Config} : Points none config config
  | target {url : String} {config target : Config} (accepted : Config.ofUrl url = .ok target) :
      Points (some url) config
        { config with host := target.host, port := target.port, protocol := target.protocol }

/-- The configuration of a run: what it starts from, overridden by the environment and pointed to
the URL. -/
def Configured (config : Config) : Prop :=
  ∃ base, StartsFrom around path base ∧ (base.override around.environment).2 = .ok () ∧
    Points url (base.override around.environment).1 config

/-- What keeps a run from having a configuration, or from having a valid one. -/
inductive Unconfigured : Prop
  | unreadable {file reason : String} (named : path = some file)
      (unread : around.files file = .error reason)
  | malformed {file text reason : String} (named : path = some file)
      (readable : around.files file = .ok text)
      (refused : around.configReader text = .error reason)
  | environment {base : Config} {cause : Misconfiguration} (starts : StartsFrom around path base)
      (refused : (base.override around.environment).2 = .error cause)
  | url {text : String} {cause : Misconfiguration} (given : url = some text)
      (refused : Config.ofUrl text = .error cause)
  | invalid {config : Config} {cause : Misconfiguration}
      (configured : Configured around path url config) (refused : config.validate = .error cause)

variable {around path url}

theorem StartsFrom.unique {base base' : Config} (h : StartsFrom around path base)
    (h' : StartsFrom around path base') : base = base' := by
  cases h with
  | default =>
    cases h'
    rfl
  | file readable accepted =>
    cases h' with
    | file readable' accepted' =>
      obtain rfl := Except.ok.inj (readable.symm.trans readable')
      exact Except.ok.inj (accepted.symm.trans accepted')

theorem Points.unique {config target target' : Config} (h : Points url config target)
    (h' : Points url config target') : target = target' := by
  cases h with
  | unchanged =>
    cases h'
    rfl
  | target accepted =>
    cases h' with
    | target accepted' =>
      obtain rfl := Except.ok.inj (accepted.symm.trans accepted')
      rfl

theorem Configured.unique {config config' : Config} (h : Configured around path url config)
    (h' : Configured around path url config') : config = config' := by
  obtain ⟨base, hstarts, -, hpoints⟩ := h
  obtain ⟨base', hstarts', -, hpoints'⟩ := h'
  obtain rfl := hstarts.unique hstarts'
  exact hpoints.unique hpoints'

theorem Unconfigured.not_valid (h : Unconfigured around path url) {config : Config}
    (hconfigured : Configured around path url config) : config.validate ≠ .ok () := by
  have ⟨base, hstarts, hcomplete, hpoints⟩ := hconfigured
  cases h with
  | unreadable named unread =>
    subst named
    cases hstarts with
    | file readable _ => exact nomatch unread.symm.trans readable
  | malformed named readable refused =>
    subst named
    cases hstarts with
    | file readable' accepted =>
      obtain rfl := Except.ok.inj (readable.symm.trans readable')
      exact nomatch refused.symm.trans accepted
  | environment starts refused =>
    obtain rfl := starts.unique hstarts
    exact nomatch refused.symm.trans hcomplete
  | url given refused =>
    subst given
    cases hpoints with
    | target accepted => exact nomatch refused.symm.trans accepted
  | invalid configured refused =>
    obtain rfl := configured.unique hconfigured
    rw [refused]
    exact nofun

theorem exists_startsFrom (h : ¬ Unconfigured around path url) :
    ∃ base, StartsFrom around path base := by
  cases path with
  | none => exact ⟨{}, .default⟩
  | some file =>
    cases hread : around.files file with
    | error reason => exact absurd (.unreadable rfl hread) h
    | ok text =>
      cases hconfig : around.configReader text with
      | error reason => exact absurd (.malformed rfl hread hconfig) h
      | ok base => exact ⟨base, .file hread hconfig⟩

theorem exists_points (h : ¬ Unconfigured around path url) (config : Config) :
    ∃ target, Points url config target := by
  cases url with
  | none => exact ⟨config, .unchanged⟩
  | some text =>
    cases htarget : Config.ofUrl text with
    | error cause => exact absurd (.url rfl htarget) h
    | ok target => exact ⟨_, .target htarget⟩

theorem exists_configured (h : ¬ Unconfigured around path url) :
    ∃ config, Configured around path url config ∧ config.validate = .ok () := by
  obtain ⟨base, hstarts⟩ := exists_startsFrom h
  obtain ⟨config, hpoints⟩ := exists_points h (base.override around.environment).1
  cases hcomplete : (base.override around.environment).2 with
  | error cause => exact absurd (.environment hstarts hcomplete) h
  | ok _ =>
    have hconfigured : Configured around path url config := ⟨base, hstarts, hcomplete, hpoints⟩
    cases hvalid : config.validate with
    | error cause => exact absurd (.invalid hconfigured hvalid) h
    | ok _ => exact ⟨config, hconfigured, hvalid⟩

theorem baseConfig_eq_ok_iff {base : Config} :
    baseConfig around path = .ok base ↔ StartsFrom around path base := by
  cases path with
  | none =>
    constructor
    · intro h
      obtain rfl := Except.ok.inj h
      exact .default
    · rintro ⟨⟩
      rfl
  | some file =>
    rw [baseConfig]
    constructor
    · intro h
      cases hread : around.files file with
      | error reason =>
        rw [hread] at h
        cases h
      | ok text =>
        rw [hread] at h
        exact .file hread (Shape.mapError_eq_ok_iff.mp h)
    · intro h
      cases h with
      | file readable accepted =>
        rw [readable]
        exact Shape.mapError_eq_ok_iff.mpr accepted

theorem configure_eq_ok_iff {config : Config} :
    configure around path url = .ok config ↔ Configured around path url config := by
  unfold configure Configured
  simp only [Shape.bind_eq_ok_iff, baseConfig_eq_ok_iff]
  refine exists_congr fun base => and_congr_right fun _ => ?_
  constructor
  · rintro ⟨_, hcomplete, hpoints⟩
    refine ⟨hcomplete, ?_⟩
    cases url with
    | none =>
      obtain rfl := Except.ok.inj hpoints
      exact .unchanged
    | some text =>
      obtain ⟨target, htarget, hpoints⟩ := Shape.bind_eq_ok_iff.mp hpoints
      obtain rfl := Except.ok.inj hpoints
      exact .target htarget
  · rintro ⟨hcomplete, hpoints⟩
    refine ⟨(), hcomplete, ?_⟩
    cases hpoints with
    | unchanged => rfl
    | target accepted => exact Shape.bind_eq_ok_iff.mpr ⟨_, accepted, rfl⟩

end Stages

end StreamSql.CommandLine
