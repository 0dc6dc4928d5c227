import Cordon.Proofs.Settings.Overlay
import Cordon.Settings.Load
import Mathlib.Data.List.Nodup
/-!
The settings one by one: the section and the key that each stands at, what it can be read from and what
it is by default. A document is read setting by setting, and a section that is absent is as one that is
empty.
-/
namespace Cordon

inductive Setting where
  | applyToAllTests
  | allowedHosts
  | blockedHosts
  | stackSnippetDepth
  | exemptStackMarkers
  | harnessThreadPrefixes
  | preloadLibraryPath
  | debug
  | filter
  | json
  deriving DecidableEq

namespace Setting

def all : List Setting :=
  [applyToAllTests, allowedHosts, blockedHosts, stackSnippetDepth, exemptStackMarkers,
    harnessThreadPrefixes, preloadLibraryPath, debug, filter, json]

/-- The section of a setting. -/
def root : Setting → String
  | applyToAllTests | allowedHosts | blockedHosts => "defaults"
  | stackSnippetDepth | exemptStackMarkers | harnessThreadPrefixes => "engine"
  | preloadLibraryPath | debug => "native"
  | filter | json => "logging"

def key : Setting → String
  | applyToAllTests => "apply_to_all_tests"
  | allowedHosts => "allowed_hosts"
  | blockedHosts => "blocked_hosts"
  | stackSnippetDepth => "stack_snippet_depth"
  | exemptStackMarkers => "exempt_stack_markers"
  | harnessThreadPrefixes => "harness_thread_prefixes"
  | preloadLibraryPath => "preload_library_path"
  | debug => "debug"
  | filter => "filter"
  | json => "json"

def path (k : Setting) : String := k.root ++ "." ++ k.key

def Value : Setting → Type
  | applyToAllTests | debug | json => Bool
  | allowedHosts | blockedHosts | exemptStackMarkers | harnessThreadPrefixes => List String
  | stackSnippetDepth => Nat
  | preloadLibraryPath => Option String
  | filter => String

end Setting

namespace Settings

def get (s : Settings) : (k : Setting) → k.Value
  | .applyToAllTests => s.defaults.applyToAllTests
  | .allowedHosts => s.defaults.allowedHosts
  | .blockedHosts => s.defaults.blockedHosts
  | .stackSnippetDepth => s.engine.stackSnippetDepth
  | .exemptStackMarkers => s.engine.exemptStackMarkers
  | .harnessThreadPrefixes => s.engine.harnessThreadPrefixes
  | .preloadLibraryPath => s.native.preloadLibraryPath
  | .debug => s.native.debug
  | .filter => s.logging.filter
  | .json => s.logging.json

def ofValues (values : (k : Setting) → k.Value) : Settings where
  defaults := ⟨values .applyToAllTests, values .allowedHosts, values .blockedHosts⟩
  engine :=
    ⟨values .stackSnippetDepth, values .exemptStackMarkers, values .harnessThreadPrefixes⟩
  native := ⟨values .preloadLibraryPath, values .debug⟩
  logging := ⟨values .filter, values .json⟩

theorem get_ofValues (values : (k : Setting) → k.Value) (k : Setting) :
    (ofValues values).get k = values k := by
  cases k <;> rfl

end Settings

namespace Setting

/-- What a value stands for as a setting, if it can. -/
def convert : (k : Setting) → Document → Option k.Value
  | applyToAllTests | debug | json => Document.switch?
  | allowedHosts | blockedHosts | exemptStackMarkers | harnessThreadPrefixes => Document.strings?
  | stackSnippetDepth => Document.count?
  | preloadLibraryPath => Document.stringOrNull?
  | filter => Document.string?

/-- A setting that has no value is built in. -/
def read (k : Setting) : Option Document → Option k.Value
  | none => some (({} : Settings).get k)
  | some d => k.convert d

variable {k k' : Setting} {d d' : Document}

theorem mem_all (k : Setting) : k ∈ all := by
  cases k <;> decide

theorem key_injective : Function.Injective key := fun k k' =>
  List.inj_on_of_nodup_map (by decide +kernel : (all.map key).Nodup) (mem_all k) (mem_all k')

theorem isPlain_root (k : Setting) : Layer.IsPlain k.root := by
  cases k <;> exact ⟨rfl, by decide +kernel⟩

theorem isPlain_key (k : Setting) : Layer.IsPlain k.key := by
  cases k <;> exact ⟨rfl, by decide +kernel⟩

theorem readPath_path (k : Setting) : Layer.readPath k.path = ⟨k.root, [.child k.key]⟩ :=
  Layer.readPath_dotted k.isPlain_root k.isPlain_key

theorem path_injective : Function.Injective path := by
  intro k k' h
  have hread : Layer.readPath k.path = Layer.readPath k'.path := congrArg _ h
  rw [readPath_path, readPath_path, Layer.Path.mk.injEq, List.cons.injEq] at hread
  exact key_injective (Layer.Step.child.inj hread.2.1)

theorem lowerName_key (k : Setting) : Layer.lowerName k.key = k.key := by
  cases k <;> decide +kernel

/-- No setting is read from a table. -/
theorem convert_of_isTable (k : Setting) (h : Layer.IsTable d) : k.convert d = none := by
  obtain ⟨entries, rfl⟩ := h
  cases k <;> rfl

theorem convert_congr (k : Setting) (h : Layer.Alike d d') : k.convert d = k.convert d' := by
  rcases h with rfl | ⟨h, h'⟩
  · rfl
  · rw [k.convert_of_isTable h, k.convert_of_isTable h']

end Setting

namespace Settings

open Layer

variable {d : Document} {entries : Entries} {s : Settings}

theorem field_inSection {α : Type} {read : Entries → Option α} {default : α} {root : String}
    (hdefault : read [] = some default) (h : HasTable root d) :
    field (inSection read) default root (entriesOf d) = read (entriesOf (tableAt root d)) := by
  rw [field, tableAt]
  cases hlookup : (entriesOf d).lookup root with
  | none => exact hdefault.symm
  | some inner =>
    obtain ⟨entries, rfl⟩ := h inner hlookup
    rfl

theorem field_tableAt (k : Setting) (d : Document) :
    field k.convert (({} : Settings).get k) k.key (entriesOf (tableAt k.root d)) =
      k.read (at? k.root k.key d) := by
  rw [at?_eq_lookup_tableAt, field]
  cases (entriesOf (tableAt k.root d)).lookup k.key <;> rfl

theorem defaultsOf_eq_some_iff {x : Defaults} : defaultsOf entries = some x ↔
    field Document.switch? false "apply_to_all_tests" entries = some x.applyToAllTests ∧
    field Document.strings? [] "allowed_hosts" entries = some x.allowedHosts ∧
    field Document.strings? [] "blocked_hosts" entries = some x.blockedHosts := by
  simp only [defaultsOf, Option.bind_eq_bind, Option.bind_eq_some_iff]
  constructor
  · rintro ⟨_, h₁, _, h₂, _, h₃, ⟨⟩⟩
    exact ⟨h₁, h₂, h₃⟩
  · rintro ⟨h₁, h₂, h₃⟩
    exact ⟨_, h₁, _, h₂, _, h₃, rfl⟩

theorem engineOf_eq_some_iff {x : EngineSettings} : engineOf entries = some x ↔
    field Document.count? 12 "stack_snippet_depth" entries = some x.stackSnippetDepth ∧
    field Document.strings? [] "exempt_stack_markers" entries = some x.exemptStackMarkers ∧
    field Document.strings? [] "harness_thread_prefixes" entries =
      some x.harnessThreadPrefixes := by
  simp only [engineOf, Option.bind_eq_bind, Option.bind_eq_some_iff]
  constructor
  · rintro ⟨_, h₁, _, h₂, _, h₃, ⟨⟩⟩
    exact ⟨h₁, h₂, h₃⟩
  · rintro ⟨h₁, h₂, h₃⟩
    exact ⟨_, h₁, _, h₂, _, h₃, rfl⟩

theorem nativeOf_eq_some_iff {x : NativeSettings} : nativeOf entries = some x ↔
    field Document.stringOrNull? none "preload_library_path" entries =
      some x.preloadLibraryPath ∧
    field Document.switch? false "debug" entries = some x.debug := by
  simp only [nativeOf, Option.bind_eq_bind, Option.bind_eq_some_iff]
  constructor
  · rintro ⟨_, h₁, _, h₂, ⟨⟩⟩
    exact ⟨h₁, h₂⟩
  · rintro ⟨h₁, h₂⟩
    exact ⟨_, h₁, _, h₂, rfl⟩

theorem loggingOf_eq_some_iff {x : LoggingSettings} : loggingOf entries = some x ↔
    field Document.string? "warn" "filter" entries = some x.filter ∧
    field Document.switch? false "json" entries = some x.json := by
  simp only [loggingOf, Option.bind_eq_bind, Option.bind_eq_some_iff]
  constructor
  · rintro ⟨_, h₁, _, h₂, ⟨⟩⟩
    exact ⟨h₁, h₂⟩
  · rintro ⟨h₁, h₂⟩
    exact ⟨_, h₁, _, h₂, rfl⟩

/-- Sections are read apart from one another. -/
theorem ofEntries_eq_some_iff_sections (h : ∀ k : Setting, HasTable k.root d) :
    ofEntries (entriesOf d) = some s ↔
      defaultsOf (entriesOf (tableAt "defaults" d)) = some s.defaults ∧
      engineOf (entriesOf (tableAt "engine" d)) = some s.engine ∧
      nativeOf (entriesOf (tableAt "native" d)) = some s.native ∧
      loggingOf (entriesOf (tableAt "logging" d)) = some s.logging := by
  have hdefaults : field (inSection defaultsOf) {} "defaults" (entriesOf d) = _ :=
    field_inSection rfl (h .allowedHosts)
  have hengine : field (inSection engineOf) {} "engine" (entriesOf d) = _ :=
    field_inSection rfl (h .stackSnippetDepth)
  have hnative : field (inSection nativeOf) {} "native" (entriesOf d) = _ :=
    field_inSection rfl (h .debug)
  have hlogging : field (inSection loggingOf) {} "logging" (entriesOf d) = _ :=
    field_inSection rfl (h .filter)
  simp only [ofEntries, hdefaults, hengine, hnative, hlogging, Option.bind_eq_bind,
    Option.bind_eq_some_iff]
  constructor
  · rintro ⟨_, h₁, _, h₂, _, h₃, _, h₄, ⟨⟩⟩
    exact ⟨h₁, h₂, h₃, h₄⟩
  · rintro ⟨h₁, h₂, h₃, h₄⟩
    exact ⟨_, h₁, _, h₂, _, h₃, _, h₄, rfl⟩

/-- A document is read setting by setting. -/
theorem ofEntries_eq_some_iff (h : ∀ k : Setting, HasTable k.root d) :
    ofEntries (entriesOf d) = some s ↔
      ∀ k : Setting, k.read (at? k.root k.key d) = some (s.get k) := by
  simp only [ofEntries_eq_some_iff_sections h, defaultsOf_eq_some_iff, engineOf_eq_some_iff,
    nativeOf_eq_some_iff, loggingOf_eq_some_iff, ← field_tableAt]
  constructor
  · rintro ⟨⟨h₁, h₂, h₃⟩, ⟨h₄, h₅, h₆⟩, ⟨h₇, h₈⟩, h₉, h₁₀⟩ k
    cases k <;> assumption
  · intro hs
    exact ⟨⟨hs .applyToAllTests, hs .allowedHosts, hs .blockedHosts⟩,
      ⟨hs .stackSnippetDepth, hs .exemptStackMarkers, hs .harnessThreadPrefixes⟩,
      ⟨hs .preloadLibraryPath, hs .debug⟩, hs .filter, hs .json⟩

end Settings
end Cordon
