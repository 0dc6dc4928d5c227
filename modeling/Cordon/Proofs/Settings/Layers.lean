import Cordon.Proofs.Settings.Environment
import Mathlib
/-!
Settings from a file and from variables, setting by setting. A setting has the value of its variable
if there is one, else that of the file, else the one that is built in, whatever the others have. Which
value a file gives does not depend on the variables.
-/
namespace Cordon

open Environment Layer

variable {env env' : Environment} {files files' : Files} {file : Entries} {name : String}
  {d d' : Document}

/-- What a key may have had given to it: nothing if nothing was given, else one of the values. -/
inductive Layer.OneOf (P : Document → Prop) : Option Document → Prop
  | nothing : (∀ d, ¬ P d) → OneOf P none
  | value {d : Document} : P d → OneOf P (some d)

namespace Setting

def IsSection (root : String) : Prop := ∃ k : Setting, root = k.root

/-- The value that a file gives to a setting, if it gives any. -/
def FileValue (k : Setting) (file : Entries) : Option Document → Prop :=
  OneOf (GivesAt file k.root k.key)

/-- The value that a setting is read from: that of its variable if there is one, else that of the
file. -/
def chosen (k : Setting) (given : Setting → Option Document) (env : Environment) :
    Option Document :=
  (k.valueIn? env).or (given k)

theorem read_congr (k : Setting) (h : Alike d d') : k.read (some d) = k.read (some d') :=
  k.convert_congr h

/-- What a file leaves behind reads as one of the values that it gives. -/
theorem exists_fileValue (k : Setting) (H : InSections IsSection file) :
    ∃ value?, k.FileValue file value? ∧ ∀ set? : Option Document,
      k.read (set?.or (at? k.root k.key (overlay file (.table [])))) = k.read (set?.or value?) := by
  rcases H.takes_overlay ⟨k, rfl⟩ k.key (.table []) with ⟨hnone, hat⟩ | ⟨d, hd, d', hat, halike⟩
  · exact ⟨none, .nothing hnone, fun set? => by rw [hat]; rfl⟩
  · refine ⟨some d, .value hd, fun set? => ?_⟩
    rw [hat]
    cases set? with
    | some => rfl
    | none => exact k.read_congr (halike.resolve_right nofun)

end Setting

namespace Settings

variable {s : Settings} {e : Error} {given : Setting → Option Document}

/-- What the file that an environment names holds; where there is no file, it is as an empty one. -/
inductive FileHolds (env : Environment) (files : Files) : Entries → Prop
  | absent : locate files (pathIn env) = none → FileHolds env files []
  | present {format : Format} {text : Option String} {entries : Entries} :
    locate files (pathIn env) = some (format, text) → readFile format text = .ok entries →
      FileHolds env files entries

theorem load_eq_ofSources (h : FileHolds env files file) :
    load env files = ofSources [file, env.source] := by
  cases h with
  | absent hlocate =>
    rw [load, hlocate]
    rfl
  | present hlocate hread =>
    rw [load, hlocate]
    dsimp only
    rw [hread]
    rfl

/-- One choice of what a file gives to the settings that does for every environment. -/
structure ReadsAs (file : Entries) (given : Setting → Option Document) : Prop where
  fileValue (k : Setting) : k.FileValue file (given k)
  document {env : Environment} {s : Settings} : env.Separate →
    (ofEntries (entriesOf (overlay env.source (overlay file (.table [])))) = some s ↔
      ∀ k : Setting, k.read (k.chosen given env) = some (s.get k))

theorem exists_readsAs (H : InSections Setting.IsSection file) : ∃ given, ReadsAs file given := by
  choose given hgiven hread using fun k : Setting => k.exists_fileValue H
  refine ⟨given, hgiven, fun henv => ?_⟩
  rw [ofEntries_eq_some_iff fun k => k.hasTable_overlay_source henv
    (H.hasTable_overlay ⟨k, rfl⟩ (.empty _))]
  simp only [Setting.at?_overlay_source _ henv, hread, Setting.chosen]

namespace ReadsAs

theorem load_eq_validate (H : ReadsAs file given) (henv : env.Separate)
    (hholds : FileHolds env files file)
    (hs : ∀ k : Setting, k.read (k.chosen given env) = some (s.get k)) :
    load env files = s.validate.bind fun _ => .ok s := by
  rw [load_eq_ofSources hholds, ofSources, List.foldl_cons, List.foldl_cons, List.foldl_nil,
    (H.document henv).mpr hs]
  rfl

theorem load_eq_error_source (H : ReadsAs file given) (henv : env.Separate)
    (hholds : FileHolds env files file) {k : Setting} (hk : k.read (k.chosen given env) = none) :
    load env files = .error .source := by
  have hnone : ofEntries (entriesOf (overlay env.source (overlay file (.table [])))) = none := by
    rw [Option.eq_none_iff_forall_ne_some]
    intro s hs
    rw [(H.document henv).mp hs k] at hk
    contradiction
  rw [load_eq_ofSources hholds, ofSources, List.foldl_cons, List.foldl_cons, List.foldl_nil, hnone]
  rfl

/-- Either every setting can be read or loading fails. -/
theorem exists_or_load_eq_error (H : ReadsAs file given) (henv : env.Separate)
    (hholds : FileHolds env files file) :
    (∃ s : Settings, ∀ k : Setting, k.read (k.chosen given env) = some (s.get k)) ∨
      load env files = .error .source := by
  by_cases h : ∀ k : Setting, ∃ v, k.read (k.chosen given env) = some v
  · choose values hvalues using h
    exact .inl ⟨ofValues values, fun k => by rw [hvalues, get_ofValues]⟩
  · obtain ⟨k, hk⟩ := not_forall.mp h
    exact .inr (H.load_eq_error_source henv hholds (Option.eq_none_iff_forall_ne_some.mpr
      fun v hv => hk ⟨v, hv⟩))

theorem load_eq_ok_iff (H : ReadsAs file given) (henv : env.Separate)
    (hholds : FileHolds env files file) : load env files = .ok s ↔
      (∀ k : Setting, k.read (k.chosen given env) = some (s.get k)) ∧ s.validate = .ok () := by
  constructor
  · intro hload
    obtain ⟨s', hs'⟩ | herror := H.exists_or_load_eq_error henv hholds
    · rw [H.load_eq_validate henv hholds hs'] at hload
      cases hvalid : s'.validate with
      | error e =>
        rw [hvalid] at hload
        contradiction
      | ok =>
        rw [hvalid] at hload
        obtain rfl := Except.ok.inj hload
        exact ⟨hs', hvalid⟩
    · rw [herror] at hload
      contradiction
  · rintro ⟨hs, hvalid⟩
    rw [H.load_eq_validate henv hholds hs, hvalid]
    rfl

/-- Nothing else of an environment matters than the file that it names and the values of the
settings. -/
theorem load_congr (H : ReadsAs file given) (henv : env.Separate) (henv' : env'.Separate)
    (hholds : FileHolds env files file) (hholds' : FileHolds env' files' file)
    (h : ∀ k : Setting, k.valueIn? env = k.valueIn? env') : load env files = load env' files' := by
  have hchosen (k : Setting) : k.chosen given env = k.chosen given env' := by
    rw [Setting.chosen, Setting.chosen, h]
  obtain ⟨s, hs⟩ | herror := H.exists_or_load_eq_error henv hholds
  · rw [H.load_eq_validate henv hholds hs,
      H.load_eq_validate henv' hholds' fun k => hchosen k ▸ hs k]
  · obtain ⟨s, hs⟩ | herror' := H.exists_or_load_eq_error henv' hholds'
    · rw [H.load_eq_validate henv' hholds' hs,
        H.load_eq_validate henv hholds fun k => (hchosen k).symm ▸ hs k]
    · rw [herror, herror']

end ReadsAs

/-- The variables for the path of the file and for the log are no settings. -/
theorem path?_ne_of_mem (h : name ∈ ["AIRGAP_CONFIG", "AIRGAP_LOG"]) (k : Setting) :
    path? name ≠ some k.path := by
  have hnames : ∀ name ∈ ["AIRGAP_CONFIG", "AIRGAP_LOG"],
      path? name ∉ Setting.all.map fun k => some k.path := by
    decide +kernel
  exact fun hpath => hnames name h (List.mem_map.mpr ⟨k, k.mem_all, hpath.symm⟩)

/-- Loading goes setting by setting. Whatever file there is, each setting is read from the value of
its variable if there is one, else from that of the file, and else it is built in; so that a variable
changes no other setting, and the variables for the path of the file and for the log change none.
Loading succeeds if every value can be read as its setting and the result is valid, and otherwise
fails for what is at fault. -/
theorem load_layers (file : Entries) (hfile : InSections Setting.IsSection file) :
    ∃ given : Setting → Option Document, (∀ k : Setting, k.FileValue file (given k)) ∧
      (∀ (env : Environment) files, env.Separate → FileHolds env files file →
        (∀ s, load env files = .ok s ↔
          (∀ k : Setting, k.read (k.chosen given env) = some (s.get k)) ∧ s.validate = .ok ()) ∧
        (∀ k : Setting, k.read (k.chosen given env) = none → load env files = .error .source) ∧
        ∀ (s : Settings) e, (∀ k : Setting, k.read (k.chosen given env) = some (s.get k)) →
          s.validate = .error e → load env files = .error e) ∧
      (∀ (env env' : Environment) files files', env.Separate → env'.Separate →
        FileHolds env files file → FileHolds env' files' file → ∀ s s', load env files = .ok s →
          load env' files' = .ok s' → ∀ k : Setting, k.valueIn? env = k.valueIn? env' →
            s.get k = s'.get k) ∧
      ∀ name ∈ ["AIRGAP_CONFIG", "AIRGAP_LOG"], ∀ text (env : Environment) files files',
        Separate ((name, text) :: env) → FileHolds ((name, text) :: env) files file →
          FileHolds env files' file → load ((name, text) :: env) files = load env files' := by
  obtain ⟨given, H⟩ := exists_readsAs hfile
  refine ⟨given, H.fileValue, fun env files henv hholds => ⟨fun s => ?_, fun k => ?_, ?_⟩, ?_, ?_⟩
  · exact H.load_eq_ok_iff henv hholds
  · exact H.load_eq_error_source henv hholds
  · intro s e hs hvalid
    rw [H.load_eq_validate henv hholds hs, hvalid]
    rfl
  · intro env env' files files' henv henv' hholds hholds' s s' hs hs' k hk
    have hread := ((H.load_eq_ok_iff henv hholds).mp hs).1 k
    rw [Setting.chosen, hk] at hread
    exact Option.some.inj (hread.symm.trans (((H.load_eq_ok_iff henv' hholds').mp hs').1 k))
  · intro name hname text env files files' henv hholds hholds'
    exact H.load_congr henv henv.of_cons hholds hholds' fun k =>
      k.valueIn?_cons_of_ne (path?_ne_of_mem hname k) text env

/-- A file with a list that is none, and a section in another case. -/
def layeredFile : Files := fun path =>
  if path = "own.json" then
    some (.file (some
      "\x7b\"defaults\":\x7b\"allowed_hosts\":5\x7d,\"Engine\":\x7b\"stack_snippet_depth\":3\x7d\x7d"))
  else none

def layeredEntries : Entries :=
  [("defaults", .table [("allowed_hosts", .whole 5)]),
    ("Engine", .table [("stack_snippet_depth", .whole 3)])]

def layeredEnvironment : Environment :=
  [("AIRGAP_LOG", "debug"), ("AIRGAP_CONFIG", "own.json"),
    ("airgap_defaults__allowed_hosts", "a.test,*.b.test")]

def layered : Settings where
  defaults := ⟨false, ["a.test", "*.b.test"], []⟩
  engine := ⟨3, [], []⟩

theorem inSections_layered : InSections Setting.IsSection layeredEntries := by
  constructor
  · rintro name d (_ | ⟨_, _ | ⟨_, ⟨⟩⟩⟩) <;> exact ⟨by decide +kernel, by decide +kernel⟩
  · rintro name d (_ | ⟨_, _ | ⟨_, ⟨⟩⟩⟩) - <;> exact ⟨_, rfl⟩

theorem separate_layered : layeredEnvironment.Separate := by
  decide +kernel

/-- The list of the variable hides that of the file, which could not be read, and nothing else. -/
theorem load_layers_hidden : load layeredEnvironment layeredFile = .ok layered ∧
    ∃ given : Setting → Option Document, (∀ k : Setting, k.FileValue layeredEntries (given k)) ∧
      ∀ k : Setting, k.read (k.chosen given layeredEnvironment) = some (layered.get k) := by
  have hholds : FileHolds layeredEnvironment layeredFile layeredEntries :=
    .present (by cbv) (by cbv)
  have hload : load layeredEnvironment layeredFile = .ok layered := by
    have hsome : (load layeredEnvironment layeredFile).toOption = some layered := by
      decide +kernel
    cases h : load layeredEnvironment layeredFile with
    | error e =>
      rw [h] at hsome
      contradiction
    | ok loaded =>
      rw [h] at hsome
      exact congrArg _ (Option.some.inj hsome)
  obtain ⟨given, hgiven, hresult, -⟩ := load_layers layeredEntries inSections_layered
  obtain ⟨hok, -⟩ := hresult _ _ separate_layered hholds
  exact ⟨hload, given, hgiven, ((hok _).mp hload).1⟩

end Settings
end Cordon
