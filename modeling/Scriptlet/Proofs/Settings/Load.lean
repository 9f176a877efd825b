import Scriptlet.Settings.Load

/-!
# Settings as they are loaded

Settings are the default ones with what a file says laid over them, if there is a file. The limit on
levels is always positive. The home directory takes the place of a tilde in the name of the history
file only if there is a file: without one that name is left as it stands among the default settings.
So a missing file and an empty one differ, unless there is nothing to put in place.

How a file is decoded is left open. All that loading relies on is said by `Decoder.Lawful`.

- `Settings.Decoder.Lawful` : a decoder changes exactly the fields that a file mentions
- `Settings.decodeYaml_lawful` : so do YAML documents
- `Settings.Origin` : where settings can come from
- `Settings.load_of_empty_file` : an empty file
- `Settings.Normalised` : settings that are complete
- `Settings.load_normalised_iff` : when the settings that are loaded are complete
-/

namespace Scriptlet
namespace Settings

/-! ## Decoders -/

/-- What loading relies on, where `mentions` gives what a file says about the settings. Nothing is
found in an empty file, and nothing is changed by it. A file with nothing wrong in it changes
exactly the fields that it mentions: each holds what the file says about it, whatever it held
before, and all others stay as they were. -/
structure Decoder.Lawful (decode : Decoder) (mentions : Source → Choices) : Prop where
  empty : ∀ settings, decode (.ok []) settings = (settings, some .endOfInput)
  exact : ∀ {source settings after fault?}, decode source settings = (after, fault?) →
    (∀ reason, fault? ≠ some (.wrong reason)) →
    ∀ field, after.content field = (mentions source field).getD (settings.content field)

/-- Choices that are applied show in the fields they are for, and in no other. -/
@[simp] theorem Choices.content_applyTo (choices : Choices) (settings : Settings) (field : Field) :
    (choices.applyTo settings).content field = (choices field).getD (settings.content field) := by
  cases field <;> rfl

/-- What the document in a file mentions, if there is one with nothing wrong in it. -/
def Choices.ofSource (source : Source) : Choices :=
  match Choices.ofSource? source with
  | .ok (some choices) => choices
  | _ => fun _ => none

/-- A document with nothing wrong in it changes exactly the fields that it mentions. -/
theorem decodeYaml_lawful : Decoder.Lawful decodeYaml Choices.ofSource where
  empty settings := rfl
  exact := by
    intro source settings after fault? decoded right field
    rw [decodeYaml] at decoded
    rw [Choices.ofSource]
    cases hsource : Choices.ofSource? source with
    | error fault =>
        rw [hsource] at decoded
        cases decoded
        exact absurd rfl (right fault.message)
    | ok choices? =>
        rw [hsource] at decoded
        cases choices? with
        | none =>
            cases decoded
            rfl
        | some choices =>
            cases decoded
            exact choices.content_applyTo settings field

/-! ## Where settings come from -/

/-- The file at a path, if there is one that can be opened. An empty path names no file. -/
def source? (host : Host) (path : Bytes) : Option Source :=
  if path.isEmpty then none else (openFile host (Path.absolute host.directory path)).toOption

theorem eq_ok_of_toOption {ε α : Type} {result : Except ε α} {a : α}
    (h : result.toOption = some a) : result = .ok a := by
  cases result with
  | error => cases h
  | ok =>
      cases h
      rfl

/-- The path of the file is none of its fields. -/
theorem content_default_with_path (path : Bytes) (field : Field) :
    content { default with path := path } field = default.content field := by
  cases field <;> rfl

/-- Another history file changes no other field. -/
theorem content_with_history (settings : Settings) (history : Bytes) {field : Field}
    (ne : field ≠ .history) :
    content { settings with history := history } field = settings.content field := by
  cases field with
  | history => exact absurd rfl ne
  | _ => rfl

/-- The default depth would pass the check. -/
theorem one_le_maxDepth_default : 1 ≤ default.maxDepth := by
  decide

/-- Where settings can come from: there is no file, and they are the default ones, or there is one,
and they are what its content makes of the default ones, with the home directory in place. -/
inductive Origin (decode : Decoder) (host : Host) (path : Bytes) : Settings → Prop
  | absent (file : Bytes) (missing : source? host path = none) :
      Origin decode host path { default with path := file }
  | present {source : Source} {inEffect : Settings} {fault? : Option DecodeFault}
      (found : source? host path = some source)
      (decoded : decode source { default with path := Path.absolute host.directory path } =
        (inEffect, fault?))
      (right : ∀ reason, fault? ≠ some (.wrong reason)) (positive : 1 ≤ inEffect.maxDepth) :
      Origin decode host path
        { inEffect with history := expandHome host.home inEffect.history }

/-- Settings that pass have a positive depth, and their history file is expanded. -/
theorem checked_eq_ok {home : Option Bytes} {file : Bytes} {inEffect settings : Settings}
    (h : checked home file inEffect = .ok settings) :
    1 ≤ inEffect.maxDepth ∧
      settings = { inEffect with history := expandHome home inEffect.history } := by
  unfold checked at h
  split at h
  case isTrue => cases h
  case isFalse hdepth =>
    cases h
    exact ⟨by omega, rfl⟩

/-- Every way in which loading succeeds. -/
theorem origin_of_loadWith {decode : Decoder} {host : Host} {path : Bytes} {settings : Settings}
    (loaded : loadWith decode host path = .ok settings) : Origin decode host path settings := by
  unfold loadWith at loaded
  split at loaded
  case isTrue hempty =>
    cases loaded
    exact .absent [] (by rw [source?, if_pos hempty])
  case isFalse hpath =>
    have hsource : source? host path =
        (openFile host (Path.absolute host.directory path)).toOption := by
      rw [source?, if_neg hpath]
    dsimp only at loaded
    cases hopen : openFile host (Path.absolute host.directory path) with
    | error fault =>
        rw [hopen] at loaded hsource
        cases fault with
        | missing =>
            cases loaded
            exact .absent _ hsource
        | _ => cases loaded
    | ok source =>
        rw [hopen] at loaded hsource
        dsimp only at loaded
        split at loaded
        case h_1 => cases loaded
        case h_2 inEffect fault? hright heq =>
          obtain ⟨hpositive, rfl⟩ := checked_eq_ok loaded
          exact .present hsource heq hright hpositive

/-! ## Complete settings -/

/-- What is in effect in a field before the home directory is put in place: what the file at the
path says about it, or its default content if there is no file or the file does not mention it. -/
def inEffect (mentions : Source → Choices) (host : Host) (path : Bytes) (field : Field) :
    field.Content :=
  ((source? host path).bind fun source => mentions source field).getD (default.content field)

/-- Settings that are complete: the limit on levels is positive, every field holds what is in
effect, and the home directory is in place in the name of the history file. -/
structure Normalised (mentions : Source → Choices) (host : Host) (path : Bytes)
    (settings : Settings) : Prop where
  positive : 1 ≤ settings.maxDepth
  effective : ∀ field, field ≠ .history → settings.content field = inEffect mentions host path field
  expanded : settings.history = expandHome host.home (inEffect mentions host path .history)

section

variable {decode : Decoder} {mentions : Source → Choices} {host : Host} {path : Bytes}
  {settings : Settings}

/-- Without a file, the defaults are in effect. -/
theorem inEffect_of_source?_eq_none (missing : source? host path = none) (field : Field) :
    inEffect mentions host path field = default.content field := by
  rw [inEffect, missing]
  rfl

/-- With one, what a lawful decoder gives is in effect. -/
theorem inEffect_of_decode (lawful : decode.Lawful mentions) {source : Source} {after : Settings}
    {fault? : Option DecodeFault} (found : source? host path = some source) {file : Bytes}
    (decoded : decode source { default with path := file } = (after, fault?))
    (right : ∀ reason, fault? ≠ some (.wrong reason)) (field : Field) :
    inEffect mentions host path field = after.content field := by
  rw [lawful.exact decoded right, content_default_with_path, inEffect, found, Option.bind_some]

/-- Settings that are loaded have a positive depth. -/
theorem Origin.one_le_maxDepth (h : Origin decode host path settings) : 1 ≤ settings.maxDepth := by
  cases h with
  | absent file => exact one_le_maxDepth_default
  | present found decoded right positive => exact positive

/-- Settings that are loaded without a file are the defaults. -/
theorem Origin.content_of_absent (h : Origin decode host path settings)
    (missing : source? host path = none) (field : Field) :
    settings.content field = default.content field := by
  cases h with
  | absent file => exact content_default_with_path file field
  | present found => cases missing.symm.trans found

/-- With a file, the settings are complete. -/
theorem Origin.normalised (h : Origin decode host path settings) (lawful : decode.Lawful mentions)
    (found : (source? host path).isSome) : Normalised mentions host path settings := by
  cases h with
  | absent file missing =>
      rw [missing] at found
      cases found
  | @present source after fault? hsource decoded right positive =>
      have heffect := inEffect_of_decode lawful hsource decoded right
      refine ⟨positive, ?_, ?_⟩
      · intro field hfield
        rw [heffect, content_with_history after _ hfield]
      · rw [heffect]
        rfl

/-- Without a file, they are complete only if there is nothing to put in place. -/
theorem Origin.normalised_iff_of_absent (h : Origin decode host path settings)
    (missing : source? host path = none) :
    Normalised mentions host path settings ↔
      expandHome host.home default.history = default.history := by
  have hdefault := h.content_of_absent missing
  have heffect := @inEffect_of_source?_eq_none mentions host path missing
  have hhistory : settings.history = default.history := hdefault .history
  constructor
  · intro hnormal
    have hexpanded := hnormal.expanded
    rw [heffect, hhistory] at hexpanded
    exact hexpanded.symm
  · intro hsame
    refine ⟨h.one_le_maxDepth, ?_, ?_⟩
    · intro field _
      rw [hdefault, heffect]
    · rw [heffect, hhistory]
      exact hsame.symm

/-- An empty file leaves the default settings, with the home directory in place. -/
theorem load_of_empty_file (lawful : decode.Lawful mentions)
    (empty : source? host path = some (.ok [])) :
    loadWith decode host path = .ok { default with
      path := Path.absolute host.directory path
      history := expandHome host.home default.history } := by
  rw [source?] at empty
  split at empty
  case isTrue => cases empty
  case isFalse hpath =>
    rw [loadWith, if_neg hpath]
    dsimp only
    rw [eq_ok_of_toOption empty]
    dsimp only
    rw [lawful.empty]
    rfl

end

/-- The limit on levels is positive in all settings that are loaded, with any lawful decoder. They
are complete exactly if there is a file or the default name of the history file has nothing to put
in place. Without a file they are the default settings as they stand, and so the settings of an
empty file are the same only if there is nothing to put in place. -/
theorem load_normalised_iff {decode : Decoder} {mentions : Source → Choices}
    (lawful : decode.Lawful mentions) {host : Host} {path : Bytes} {settings : Settings}
    (loaded : loadWith decode host path = .ok settings) :
    1 ≤ settings.maxDepth ∧
    (Normalised mentions host path settings ↔
      (source? host path).isSome ∨ expandHome host.home default.history = default.history) ∧
    (source? host path = none →
      (∀ field, settings.content field = default.content field) ∧
      ∀ (other : Host) (file : Bytes), other.home = host.home →
        source? other file = some (.ok []) →
        ∃ settings', loadWith decode other file = .ok settings' ∧
          ((∀ field, settings'.content field = settings.content field) ↔
            expandHome host.home default.history = default.history)) := by
  have horigin := origin_of_loadWith loaded
  refine ⟨horigin.one_le_maxDepth, ?_, ?_⟩
  · cases hsource : source? host path with
    | none =>
        rw [horigin.normalised_iff_of_absent hsource]
        exact (or_iff_right Bool.false_ne_true).symm
    | some source =>
        have hfound : (source? host path).isSome := by rw [hsource]; rfl
        exact iff_of_true (horigin.normalised lawful hfound) (.inl rfl)
  · intro missing
    have hdefault := horigin.content_of_absent missing
    refine ⟨hdefault, ?_⟩
    intro other file hhome hempty
    refine ⟨_, load_of_empty_file lawful hempty, ?_⟩
    rw [hhome]
    constructor
    · intro hsame
      exact (hsame .history).trans (hdefault .history)
    · intro hsame field
      rw [hdefault field, hsame]
      exact content_default_with_path _ field

/-- A document that merges one setting and names another. -/
theorem load_normalised_iff_merged :
    let host : Host :=
      ⟨⟨[([.ofString "c"], .ofString "<<: \x7bcolor: no\x7d\nhistory: ~/h\n")], []⟩, .ofString "/",
        some (.ofString "/home/u"), [], false⟩
    let settings : Settings :=
      ⟨.ofString "/c", ">>> ", "... ", .ofString "/home/u/h", 10000, false⟩
    Decoder.Lawful decodeYaml Choices.ofSource ∧
      loadWith decodeYaml host (.ofString "c") = .ok settings ∧
      Normalised Choices.ofSource host (.ofString "c") settings := by
  intro host settings
  have loaded : loadWith decodeYaml host (.ofString "c") = .ok settings :=
    eq_ok_of_toOption (by decide +kernel)
  exact ⟨decodeYaml_lawful, loaded,
    (load_normalised_iff decodeYaml_lawful loaded).2.1.2 (.inl (by decide +kernel))⟩

/-- Without a file the tilde stays in the name of the history file, though the home directory is
known. -/
theorem not_normalised_without_file :
    let host : Host := ⟨⟨[], []⟩, .ofString "/", some (.ofString "/home/u"), [], false⟩
    let settings : Settings := { default with path := .ofString "/nope.yaml" }
    load host (.ofString "nope.yaml") = .ok settings ∧
      ¬ Normalised Choices.ofSource host (.ofString "nope.yaml") settings := by
  intro host settings
  have loaded : load host (.ofString "nope.yaml") = .ok settings :=
    eq_ok_of_toOption (by decide +kernel)
  have missing : source? host (.ofString "nope.yaml") = none := by decide +kernel
  refine ⟨loaded, ?_⟩
  rw [(origin_of_loadWith loaded).normalised_iff_of_absent missing]
  decide +kernel

end Settings
end Scriptlet
