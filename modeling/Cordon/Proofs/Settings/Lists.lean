import Cordon.Proofs.Settings.Layers
import Cordon.Proofs.Settings.Scalar
import Cordon.Proofs.Settings.Validity
/-!
Lists in variables. Texts that are joined with commas come back as they were, unless there is one text
only and it stands for a single value, which is no list.
-/
namespace Cordon

open Environment Layer Policy Text

/-- The settings that are lists of texts. -/
inductive ListSetting where
  | allowedHosts
  | blockedHosts
  | exemptStackMarkers
  | harnessThreadPrefixes

variable {l : ListSetting} {k : Setting} {env : Environment} {files : Files} {text : String}
  {texts : List String}

namespace ListSetting

def setting : ListSetting → Setting
  | allowedHosts => .allowedHosts
  | blockedHosts => .blockedHosts
  | exemptStackMarkers => .exemptStackMarkers
  | harnessThreadPrefixes => .harnessThreadPrefixes

/-- The built-in settings but for one list. -/
def settings : ListSetting → List String → Settings
  | allowedHosts, texts => { defaults := { allowedHosts := texts } }
  | blockedHosts, texts => { defaults := { blockedHosts := texts } }
  | exemptStackMarkers, texts => { engine := { exemptStackMarkers := texts } }
  | harnessThreadPrefixes, texts => { engine := { harnessThreadPrefixes := texts } }

/-- Whether the texts of a list must be patterns. -/
def IsHosts (l : ListSetting) : Prop := l = allowedHosts ∨ l = blockedHosts

theorem path_mem_listPaths (l : ListSetting) : l.setting.path ∈ listPaths := by
  cases l <;> decide

theorem get_settings_of_ne (h : k ≠ l.setting) (texts : List String) :
    (l.settings texts).get k = ({} : Settings).get k := by
  cases l <;> cases k <;> first | rfl | exact absurd rfl h

theorem convert_list (l : ListSetting) (texts : List String) :
    l.setting.convert (.list (texts.map .text)) = some ((l.settings texts).get l.setting) := by
  have hstrings : Document.strings? (.list (texts.map .text)) = some texts := by
    rw [Document.strings?]
    induction texts with
    | nil => rfl
    | cons text texts ih => simp [Document.string?, ih]
  cases l <;> exact hstrings

theorem convert_of_isScalar (l : ListSetting) (h : IsScalar text) (path : String) :
    l.setting.convert (value path text) = none := by
  cases l <;> exact strings?_value_of_isScalar h path

theorem validate_settings (h : l.IsHosts → AllParse texts) :
    (l.settings texts).validate = .ok () := by
  have hdepth : 1 ≤ (l.settings texts).engine.stackSnippetDepth := by
    cases l <;> exact (by decide : 1 ≤ 12)
  rw [Settings.validate_eq_ok_iff, exists_build_iff, and_iff_right hdepth]
  cases l with
  | allowedHosts =>
    rw [← List.append_nil texts] at h
    exact h (.inl rfl)
  | blockedHosts => exact h (.inr rfl)
  | exemptStackMarkers | harnessThreadPrefixes => exact nofun

end ListSetting

/-- Whether an environment gives a text to a setting and nothing to any other. -/
structure Environment.SetsOnly (env : Environment) (k : Setting) (text : String) : Prop where
  separate : env.Separate
  mem : ∃ name, (name, text) ∈ env ∧ path? name = some k.path
  only {name other : String} {k' : Setting} : (name, other) ∈ env →
    path? name = some k'.path → k' = k

theorem Environment.SetsOnly.valueIn?_eq (H : env.SetsOnly k text) :
    k.valueIn? env = some (value k.path text) := by
  obtain ⟨name, hmem, hname⟩ := H.mem
  exact Setting.valueIn?_of_mem H.separate hmem hname

theorem Environment.setsOnly_singleton {name : String} (h : path? name = some k.path)
    (text : String) : SetsOnly [(name, text)] k text where
  separate := by
    refine ⟨fun {other _ path} hmem hpath => ?_, ?_⟩
    · obtain ⟨rfl, -⟩ := Prod.mk.inj (List.mem_singleton.mp hmem)
      exact .inl ⟨k, Option.some.inj (hpath.symm.trans h)⟩
    · rw [paths_cons_of_some h]
      exact List.nodup_singleton _
  mem := ⟨name, List.mem_cons_self, h⟩
  only {other _ k'} hmem hpath := by
    obtain ⟨rfl, -⟩ := Prod.mk.inj (List.mem_singleton.mp hmem)
    exact Setting.path_injective (Option.some.inj (hpath.symm.trans h))

theorem Environment.SetsOnly.valueIn?_eq_none (H : env.SetsOnly k text) {k' : Setting}
    (h : k' ≠ k) : k'.valueIn? env = none := by
  refine Setting.valueIn?_eq_none fun hpath => ?_
  obtain ⟨name, other, hmem, hname⟩ := mem_paths.mp hpath
  exact h (H.only hmem hname)

namespace Settings

/-- A file that is empty, or that there is none of, gives nothing. -/
theorem readsAs_nil : ReadsAs [] fun _ => none := by
  have hfile : InSections Setting.IsSection [] := ⟨nofun, nofun⟩
  obtain ⟨given, H⟩ := exists_readsAs hfile
  have hgiven (k : Setting) : given k = none := by
    rcases hvalue : given k, H.fileValue k with ⟨_, _ | ⟨inner, ⟨name, hmem, -⟩, -⟩⟩
    · rfl
    · contradiction
  rwa [funext hgiven] at H

theorem load_of_isScalar (H : env.SetsOnly l.setting text) (hfile : FileHolds env files [])
    (h : IsScalar text) : load env files = .error .source := by
  refine readsAs_nil.load_eq_error_source H.separate hfile (k := l.setting) ?_
  rw [Setting.chosen, H.valueIn?_eq]
  exact l.convert_of_isScalar h _

theorem load_of_not_isScalar (H : env.SetsOnly l.setting text) (hfile : FileHolds env files [])
    (h : ¬ IsScalar text) (hhosts : l.IsHosts → AllParse (listTexts text.toList)) :
    load env files = .ok (l.settings (listTexts text.toList)) := by
  refine (readsAs_nil.load_eq_ok_iff H.separate hfile).mpr
    ⟨fun k => ?_, l.validate_settings hhosts⟩
  by_cases hk : k = l.setting
  · rw [hk, Setting.chosen, H.valueIn?_eq, value_of_not_isScalar h l.path_mem_listPaths]
    exact l.convert_list _
  · rw [Setting.chosen, H.valueIn?_eq_none hk, l.get_settings_of_ne hk]
    rfl

theorem toList_intercalate_comma (texts : List String) :
    (",".intercalate texts).toList = joinWith ',' (texts.map String.toList) :=
  toList_intercalate ',' rfl texts

theorem listTexts_intercalate (hne : texts ≠ []) (hcomma : ∀ text ∈ texts, ',' ∉ text.toList) :
    listTexts (",".intercalate texts).toList = texts := by
  have hpieces : ∀ piece ∈ texts.map String.toList, ',' ∉ piece := by
    intro piece hpiece
    obtain ⟨text, htext, rfl⟩ := List.mem_map.mp hpiece
    exact hcomma text htext
  rw [listTexts, toList_intercalate_comma, splitAt_joinWith (by simpa using hne) hpieces,
    List.map_map]
  simp

/-- Joined texts are a single value only where there is one text and it is one. -/
theorem isScalar_intercalate_iff (hne : texts ≠ []) :
    IsScalar (",".intercalate texts) ↔ ∃ text, texts = [text] ∧ IsScalar text := by
  match texts with
  | [text] =>
    rw [String.intercalate_singleton]
    simp
  | text :: next :: rest =>
    constructor
    · intro h
      have hcomma := h.comma_not_mem
      rw [toList_intercalate_comma] at hcomma
      exact absurd (sep_mem_joinWith ..) hcomma
    · rintro ⟨other, h, -⟩
      exact absurd (List.cons.inj h).2 (List.cons_ne_nil _ _)

/-- A list that is joined with commas into the variable of its setting comes back text by text, with
its spaces and its empty texts. One text by itself that reads as a switch or as a number is no list,
and loading fails. -/
theorem load_joined (l : ListSetting) (texts : List String) (hne : texts ≠ [])
    (hcomma : ∀ text ∈ texts, ',' ∉ text.toList) (hhosts : l.IsHosts → AllParse texts)
    (env : Environment) (files : Files) (hfile : FileHolds env files [])
    (henv : env.SetsOnly l.setting (",".intercalate texts)) :
    ((¬ ∃ text, texts = [text] ∧ IsScalar text) → load env files = .ok (l.settings texts)) ∧
      ((∃ text, texts = [text] ∧ IsScalar text) → load env files = .error .source) := by
  rw [← isScalar_intercalate_iff hne]
  constructor
  · intro h
    have hload := load_of_not_isScalar henv hfile h
    rw [listTexts_intercalate hne hcomma] at hload
    exact hload hhosts
  · exact load_of_isScalar henv hfile

/-- Among others a number is a text as any other; by itself it is not. -/
theorem load_joined_markers :
    load [("AIRGAP_ENGINE__EXEMPT_STACK_MARKERS", " a,,10")] (fun _ => none) =
      .ok { engine := { exemptStackMarkers := [" a", "", "10"] } } ∧
    load [("AIRGAP_DEFAULTS__ALLOWED_HOSTS", "1e5")] (fun _ => none) = .error .source := by
  constructor
  · refine (load_joined .exemptStackMarkers [" a", "", "10"] (by simp) (by decide +kernel) ?_ _ _
      (.absent (by cbv)) (setsOnly_singleton (by decide +kernel) _)).1 ?_
    · rintro (h | h) <;> contradiction
    · rintro ⟨text, h, -⟩
      exact absurd (List.cons.inj h).2 (List.cons_ne_nil _ _)
  · have hpattern : AllParse ["1e5"] := by
      intro text htext
      obtain rfl := List.mem_singleton.mp htext
      have hvalid : Pattern.Valid "1e5" := Pattern.valid_iff.mpr ⟨by decide +kernel, rfl⟩
      exact ⟨⟨"1e5", hvalid⟩, Pattern.parse_source ⟨"1e5", hvalid⟩⟩
    exact (load_joined .allowedHosts ["1e5"] (by simp) (by decide +kernel) (fun _ => hpattern) _ _
      (.absent (by cbv)) (setsOnly_singleton (by decide +kernel) _)).2
        ⟨_, rfl, .decimal (decimal?_isSome_iff.mp (by decide +kernel))⟩

end Settings
end Cordon
