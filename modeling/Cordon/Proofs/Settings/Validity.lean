import Cordon.Proofs.Lifecycle.Activation
import Cordon.Settings.Load
/-!
What a check of settings promises. It looks at the texts in the order in which a policy is built of
them, so that it finds what the building would find: their defaults make a policy if the check finds
no fault in them. No test that is guarded by settings that were loaded fails to begin over a text of
theirs.
-/
namespace Cordon

open Policy

theorem Pattern.Fault.reason_injective : Function.Injective reason := by
  intro f g h
  cases f <;> cases g <;> first | rfl | exact absurd h (by decide)

theorem Error.ofRejection_injective : Function.Injective ofRejection := by
  intro r r' h
  obtain ⟨htext, hreason⟩ := Error.pattern.inj h
  cases r
  cases r'
  rw [Pattern.Rejection.mk.injEq]
  exact ⟨htext, Pattern.Fault.reason_injective hreason⟩

namespace Settings

variable {texts : List String} {text : String} {p : Pattern} {r : Pattern.Rejection} {e : Error}
  {settings : Settings} {sources : List Layer.Entries} {env : Environment} {files : Files}

/-! ## Checking -/

theorem checkPatterns_cons_of_ok (h : Pattern.parse text = .ok p) :
    checkPatterns (text :: texts) = checkPatterns texts := by
  rw [checkPatterns, List.forM_eq_forM, List.forM_cons, h]
  rfl

theorem checkPatterns_cons_of_error (h : Pattern.parse text = .error r) :
    checkPatterns (text :: texts) = .error (.ofRejection r) := by
  rw [checkPatterns, List.forM_eq_forM, List.forM_cons, h]
  rfl

theorem checkPatterns_eq_error_iff :
    checkPatterns texts = .error e ↔ ∃ r, FirstRejection texts r ∧ Error.ofRejection r = e := by
  induction texts with
  | nil =>
    constructor
    · exact nofun
    · rintro ⟨r, H, -⟩
      cases H
  | cons text texts ih =>
    cases hparse : Pattern.parse text with
    | ok p => simp only [checkPatterns_cons_of_ok hparse, firstRejection_cons_of_ok hparse, ih]
    | error r =>
      simp only [checkPatterns_cons_of_error hparse, firstRejection_cons_of_error hparse,
        exists_eq_left', Except.error.injEq]

theorem checkPatterns_eq_ok_iff : checkPatterns texts = .ok () ↔ AllParse texts := by
  constructor
  · intro h
    refine (allParse_or_firstRejection texts).resolve_right ?_
    rintro ⟨r, H⟩
    rw [checkPatterns_eq_error_iff.mpr ⟨r, H, rfl⟩] at h
    contradiction
  · intro hall
    cases hcheck : checkPatterns texts with
    | ok => rfl
    | error e =>
      obtain ⟨r, H, -⟩ := checkPatterns_eq_error_iff.mp hcheck
      exact absurd hall H.not_allParse

theorem validate_eq_ok_iff : settings.validate = .ok () ↔
    1 ≤ settings.engine.stackSnippetDepth ∧ ∃ c, build settings.defaults.draft = .ok c := by
  rw [exists_build_iff, Nat.one_le_iff_ne_zero]
  change _ ↔ _ ∧ AllParse (settings.defaults.allowedHosts ++ settings.defaults.blockedHosts)
  rw [← checkPatterns_eq_ok_iff, and_comm]
  constructor
  · intro h
    obtain ⟨_, hcheck, h⟩ := exists_of_bind_eq_ok h
    refine ⟨hcheck, fun hdepth => ?_⟩
    rw [if_pos hdepth] at h
    contradiction
  · rintro ⟨hcheck, hdepth⟩
    rw [validate, hcheck]
    exact if_neg hdepth

/-- The depth is looked at last, so that it hides no text. -/
theorem validate_eq_error_ofRejection_iff :
    settings.validate = .error (.ofRejection r) ↔ build settings.defaults.draft = .error r := by
  rw [build_eq_error_iff, validate, bind_eq_error_iff, checkPatterns_eq_error_iff]
  constructor
  · rintro (⟨r', H, hr⟩ | ⟨_, -, h⟩)
    · exact Error.ofRejection_injective hr ▸ H
    · split at h
      · exact absurd (Except.error.inj h) nofun
      · contradiction
  · exact fun H => .inl ⟨r, H, rfl⟩

/-! ## Loading -/

/-- The defaults of valid settings make a policy. -/
theorem exists_build_of_validate (h : settings.validate = .ok ()) :
    ∃ c, build settings.defaults.draft = .ok c :=
  (validate_eq_ok_iff.mp h).2

theorem validate_of_ofSources (h : ofSources sources = .ok settings) :
    settings.validate = .ok () := by
  rw [ofSources] at h
  split at h
  · contradiction
  · obtain ⟨_, hvalid, h⟩ := exists_of_bind_eq_ok h
    obtain rfl := Except.ok.inj h
    exact hvalid

/-- Whatever is loaded is valid. -/
theorem validate_of_load (h : load env files = .ok settings) : settings.validate = .ok () := by
  rw [load] at h
  split at h
  · exact validate_of_ofSources h
  · obtain ⟨entries, -, h⟩ := exists_of_bind_eq_ok h
    exact validate_of_ofSources h

theorem validate_of_loadFile {path : String} (h : loadFile files path = .ok settings) :
    settings.validate = .ok () := by
  rw [loadFile] at h
  split at h
  · contradiction
  · dsimp only at h
    split at h
    · contradiction
    · obtain ⟨entries, -, h⟩ := exists_of_bind_eq_ok h
      exact validate_of_ofSources h

/-! ## Beginning a test -/

/-- Under valid settings a test is at fault itself if it fails to begin. -/
theorem exists_fst_beforeTest (h : settings.validate = .ok ()) {a : Annotations}
    (ha : AllParse (a.allowedHosts ++ a.blockedHosts)) (store : StoreId) (w : Stores) (t : Thread) :
    ∃ policy?, ((⟨store, settings.defaults⟩ : Lifecycle).beforeTest w t a).1 = .ok policy? := by
  have hdefaults : AllParse (settings.defaults.allowedHosts ++ settings.defaults.blockedHosts) :=
    exists_build_iff.mp (exists_build_of_validate h)
  cases hbegins : ((⟨store, settings.defaults⟩ : Lifecycle).beforeTest w t a).1 with
  | ok policy? => exact ⟨policy?, rfl⟩
  | error r =>
    rw [Lifecycle.fst_beforeTest_eq_error_iff, Lifecycle.resolve_eq_error_iff] at hbegins
    exact absurd (List.forall_mem_append.mpr ⟨hdefaults, ha⟩) hbegins.2.not_allParse

/-- Settings are valid if a block reports at least one frame and a policy can be built of their
defaults. Where none can be, the check fails as the building does, whatever the depth. Settings that
were loaded, from one file or with the environment, let every test begin whose own texts are
patterns. -/
theorem validate_sound_complete :
    (∀ settings : Settings, settings.validate = .ok () ↔
      1 ≤ settings.engine.stackSnippetDepth ∧ ∃ c, build settings.defaults.draft = .ok c) ∧
    (∀ (settings : Settings) r, settings.validate = .error (.ofRejection r) ↔
      build settings.defaults.draft = .error r) ∧
    (∀ settings : Settings, ((∃ env files, load env files = .ok settings) ∨
        ∃ files path, loadFile files path = .ok settings) →
      ∀ a : Annotations, AllParse (a.allowedHosts ++ a.blockedHosts) → ∀ store w t,
        ∃ policy?, ((⟨store, settings.defaults⟩ : Lifecycle).beforeTest w t a).1 = .ok policy?) := by
  refine ⟨fun settings => validate_eq_ok_iff,
    fun settings r => validate_eq_error_ofRejection_iff, ?_⟩
  rintro settings (⟨env, files, hload⟩ | ⟨files, path, hload⟩) a ha store w t
  · exact exists_fst_beforeTest (validate_of_load hload) ha store w t
  · exact exists_fst_beforeTest (validate_of_loadFile hload) ha store w t

/-- A file of settings that guard every test. -/
def guardingFile : Files := fun path =>
  if path = "guard.toml" then
    some (.file (some "[defaults]\napply_to_all_tests = true\nblocked_hosts = [' evil.* ']\n"))
  else none

/-- A text is named though the depth is at fault as well, and not the text after it. -/
theorem validate_sound_complete_shallow :
    (∃ settings, loadFile guardingFile "guard.toml" = .ok settings ∧
      ∃ policy?, ((⟨1, settings.defaults⟩ : Lifecycle).beforeTest {} ⟨1, none⟩ {}).1 =
        .ok policy?) ∧
    ({ defaults := { allowedHosts := [" "], blockedHosts := ["a/b"] },
        engine := { stackSnippetDepth := 0 } } :
      Settings).validate = .error (.pattern "" "pattern is empty") := by
  obtain ⟨-, hrejected, hbegins⟩ := validate_sound_complete
  let settings : Settings := { defaults := ⟨true, [], [" evil.* "]⟩ }
  have hload : loadFile guardingFile "guard.toml" = .ok settings := by
    have hsome : (loadFile guardingFile "guard.toml").toOption = some settings := by
      decide +kernel
    cases h : loadFile guardingFile "guard.toml" with
    | error e => rw [h] at hsome; contradiction
    | ok loaded => rw [h] at hsome; rw [Option.some.inj hsome]
  refine ⟨⟨settings, hload, hbegins settings (.inr ⟨_, _, hload⟩) {} nofun 1 {} _⟩, ?_⟩
  exact (hrejected _ ⟨"", .empty⟩).mpr rfl

end Settings
end Cordon
