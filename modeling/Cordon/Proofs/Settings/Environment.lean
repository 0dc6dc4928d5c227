import Cordon.Proofs.Settings.Setting
import Cordon.Proofs.Text.CaseFold
/-!
Variables as a source of settings. The path of a variable is in lower case, so that it leads where it
says; and a variable gives its value to the setting that it names and to no other.
-/
namespace Cordon

open Layer Text

variable {env : Environment} {k : Setting} {name text path : String} {d : Document}

/-! ## Names of variables -/

namespace Layer

/-- A text that lowering leaves as it is. -/
def IsLow (s : String) : Prop := ∀ c ∈ s.toList, c ≠ '\u212A' ∧ c.toLower = c

theorem IsLow.lowerName_eq {s : String} (h : IsLow s) : lowerName s = s := by
  have hmap : (s.toList.map fun c => if c = '\u212A' then 'k' else c.toLower) = s.toList.map id :=
    List.map_congr_left fun c hc => by rw [if_neg (h c hc).1, (h c hc).2, id]
  rw [lowerName, hmap, List.map_id, String.ofList_toList]

theorem isLow_lowerName (s : String) : IsLow (lowerName s) := by
  intro c hc
  rw [lowerName, String.toList_ofList] at hc
  obtain ⟨d, -, rfl⟩ := List.mem_map.mp hc
  split
  · decide
  · next hd =>
    refine ⟨fun hlower => hd ?_, toLower_toLower d⟩
    rw [← Char.toNat_inj, toNat_toLower] at hlower
    rw [← Char.toNat_inj]
    split at hlower <;> simp at hlower ⊢ <;> omega

/-- The root of a path is a part of its text. -/
theorem mem_of_mem_root {c : Char} (h : c ∈ (readPath text).root.toList) : c ∈ text.toList := by
  rw [readPath] at h
  split at h
  · exact h
  · split at h
    · rw [String.toList_ofList] at h
      exact (List.takeWhile_sublist isKeyChar).subset h
    · exact h

end Layer

namespace Environment

theorem mem_of_mem_dotted {c : Char} {cs : List Char} (h : c ∈ dotted cs) : c = '.' ∨ c ∈ cs := by
  fun_induction dotted cs with
  | case1 rest ih =>
    rcases List.mem_cons.mp h with rfl | h
    · exact .inl rfl
    · exact (ih h).imp_right fun h => List.mem_cons_of_mem _ (List.mem_cons_of_mem _ h)
  | case2 d rest _ ih =>
    rcases List.mem_cons.mp h with rfl | h
    · exact .inr List.mem_cons_self
    · exact (ih h).imp_right (List.mem_cons_of_mem _)
  | case3 => contradiction

theorem isLow_of_path? (h : path? name = some path) : IsLow path := by
  rw [path?] at h
  split at h
  · obtain rfl := Option.some.inj h
    intro c hc
    rw [String.toList_ofList] at hc
    rcases mem_of_mem_dotted hc with rfl | hc
    · decide
    · exact isLow_lowerName name c (List.mem_of_mem_drop hc)
  · contradiction

/-- The path of a variable is in lower case, so that it leads where it says. -/
theorem lowerName_root (h : path? name = some path) :
    lowerName (readPath path).root = (readPath path).root :=
  IsLow.lowerName_eq fun c hc => isLow_of_path? h c (mem_of_mem_root hc)

theorem lowerName_ne (h : path? name = some path) (hroot : (readPath path).root ≠ k.root) :
    k.root ≠ lowerName (readPath path).root := by
  rw [lowerName_root h]
  exact hroot.symm

theorem not_isTable_value (path text : String) : ¬ IsTable (value path text) := by
  rintro ⟨entries, h⟩
  rw [value] at h
  repeat' split at h
  all_goals cases h

theorem source_cons_of_none (h : path? name = none) (text : String) (env : Environment) :
    source ((name, text) :: env) = source env :=
  List.filterMap_cons_none (Option.map_eq_none_iff.mpr h)

theorem source_cons_of_some (h : path? name = some path) (text : String) (env : Environment) :
    source ((name, text) :: env) = (path, value path text) :: source env :=
  List.filterMap_cons_some (Option.map_eq_some_iff.mpr ⟨path, h, rfl⟩)

/-- The paths of the variables that have one. -/
def paths (env : Environment) : List String := env.filterMap fun v => path? v.1

theorem paths_cons_of_some (h : path? name = some path) (text : String) (env : Environment) :
    paths ((name, text) :: env) = path :: paths env :=
  List.filterMap_cons_some h

/-- Whether each variable that has a path names a setting or stands outside the sections, and no two
have the same path. -/
structure Separate (env : Environment) : Prop where
  path {name text path : String} : (name, text) ∈ env → path? name = some path →
    (∃ k : Setting, path = k.path) ∨ ∀ k : Setting, (readPath path).root ≠ k.root
  nodup : env.paths.Nodup

theorem Separate.of_cons {v : String × String} (H : Separate (v :: env)) : Separate env := by
  refine ⟨fun h => H.path (List.mem_cons_of_mem _ h), ?_⟩
  have hnodup := H.nodup
  rw [paths, List.filterMap_cons] at hnodup
  split at hnodup
  · exact hnodup
  · exact hnodup.of_cons

theorem mem_paths :
    path ∈ env.paths ↔ ∃ name text, (name, text) ∈ env ∧ path? name = some path := by
  simp [paths]

theorem separate_iff : env.Separate ↔
    (∀ path ∈ env.paths, path ∈ Setting.all.map Setting.path ∨
      (readPath path).root ∉ Setting.all.map Setting.root) ∧ env.paths.Nodup := by
  have hsetting (path : String) :
      path ∈ Setting.all.map Setting.path ↔ ∃ k : Setting, path = k.path := by
    simp [Setting.mem_all, eq_comm]
  have hroot (root : String) :
      root ∉ Setting.all.map Setting.root ↔ ∀ k : Setting, root ≠ k.root := by
    simp [Setting.mem_all, eq_comm]
  simp only [hsetting, hroot]
  constructor
  · intro H
    refine ⟨fun path hpath => ?_, H.nodup⟩
    obtain ⟨name, text, hmem, hname⟩ := mem_paths.mp hpath
    exact H.path hmem hname
  · rintro ⟨hpaths, hnodup⟩
    refine ⟨fun {name text path} hmem hname => ?_, hnodup⟩
    exact hpaths path (mem_paths.mpr ⟨name, text, hmem, hname⟩)

instance : Decidable env.Separate := decidable_of_iff _ separate_iff.symm

end Environment

open Environment

/-! ## Variables over a document -/

namespace Setting

/-- The value that the variable of a setting stands for, if there is one. -/
def valueIn? (k : Setting) (env : Environment) : Option Document :=
  (env.find? fun v => path? v.1 = some k.path).map fun v => value k.path v.2

theorem valueIn?_cons_of_eq (h : path? name = some k.path) (text : String) (env : Environment) :
    k.valueIn? ((name, text) :: env) = some (value k.path text) := by
  rw [valueIn?, List.find?_cons_of_pos (by simpa using h), Option.map_some]

theorem valueIn?_cons_of_ne (h : path? name ≠ some k.path) (text : String) (env : Environment) :
    k.valueIn? ((name, text) :: env) = k.valueIn? env := by
  rw [valueIn?, List.find?_cons_of_neg (by simpa using h), valueIn?]

theorem valueIn?_eq_none (h : k.path ∉ env.paths) : k.valueIn? env = none := by
  rw [valueIn?, Option.map_eq_none_iff, List.find?_eq_none]
  intro v hv hpath
  exact h (List.mem_filterMap.mpr ⟨v, hv, by simpa using hpath⟩)

/-- There is only one variable to look for. -/
theorem valueIn?_of_mem (H : env.Separate) (hmem : (name, text) ∈ env)
    (hname : path? name = some k.path) : k.valueIn? env = some (value k.path text) := by
  induction env with
  | nil => contradiction
  | cons v env ih =>
    rcases List.mem_cons.mp hmem with rfl | hmem
    · exact valueIn?_cons_of_eq hname text env
    · have hhead : path? v.1 ≠ some k.path := by
        intro hv
        have hnodup := H.nodup
        rw [paths_cons_of_some hv, List.nodup_cons] at hnodup
        exact hnodup.1 (mem_paths.mpr ⟨name, text, hmem, hname⟩)
      rw [valueIn?_cons_of_ne hhead]
      exact ih H.of_cons hmem

/-- A variable gives its value to the setting that it names and to no other. -/
theorem at?_setPath (k : Setting) (hname : path? name = some path)
    (hpath : (∃ k : Setting, path = k.path) ∨ ∀ k : Setting, (readPath path).root ≠ k.root)
    (text : String) (d : Document) :
    at? k.root k.key (setPath (readPath path) (value path text) d) =
      if path = k.path then some (value k.path text) else at? k.root k.key d := by
  rcases hpath with ⟨k', rfl⟩ | hroot
  · rw [readPath_path, at?_setPath_child (not_isTable_value _ _) k'.lowerName_key]
    by_cases hk : k = k'
    · rw [hk, if_pos ⟨rfl, rfl⟩, if_pos rfl]
    · rw [if_neg fun h => hk (key_injective h.2), if_neg fun h => hk (path_injective h.symm)]
  · have hne : path ≠ k.path := by
      rintro rfl
      exact hroot k (congrArg Path.root k.readPath_path)
    rw [if_neg hne, at?, at?, lookup_setPath_of_ne (hroot k).symm (lowerName_ne hname (hroot k))]

theorem hasTable_setPath (k : Setting) (hname : path? name = some path)
    (hpath : (∃ k : Setting, path = k.path) ∨ ∀ k : Setting, (readPath path).root ≠ k.root)
    (text : String) (hd : HasTable k.root d) :
    HasTable k.root (setPath (readPath path) (value path text) d) := by
  rcases hpath with ⟨k', rfl⟩ | hroot
  · rw [readPath_path]
    exact hd.setPath_child _ _ _
  · intro inner hinner
    rw [lookup_setPath_of_ne (hroot k).symm (lowerName_ne hname (hroot k))] at hinner
    exact hd inner hinner

theorem at?_overlay_source (k : Setting) (H : env.Separate) (d : Document) :
    at? k.root k.key (overlay env.source d) = (k.valueIn? env).or (at? k.root k.key d) := by
  induction env generalizing d with
  | nil => rfl
  | cons v env ih =>
    obtain ⟨name, text⟩ := v
    cases hname : path? name with
    | none =>
      rw [source_cons_of_none hname, valueIn?_cons_of_ne (by simp [hname])]
      exact ih H.of_cons d
    | some path =>
      have hnodup := H.nodup
      rw [paths_cons_of_some hname, List.nodup_cons] at hnodup
      rw [source_cons_of_some hname, overlay_cons, ih H.of_cons,
        k.at?_setPath hname (H.path List.mem_cons_self hname)]
      by_cases hk : path = k.path
      · rw [valueIn?_cons_of_eq (hk ▸ hname), if_pos hk, valueIn?_eq_none (hk ▸ hnodup.1),
          Option.none_or, Option.some_or]
      · rw [valueIn?_cons_of_ne (by simp [hname, hk]), if_neg hk]

theorem hasTable_overlay_source (k : Setting) (H : env.Separate) (hd : HasTable k.root d) :
    HasTable k.root (overlay env.source d) := by
  induction env generalizing d with
  | nil => exact hd
  | cons v env ih =>
    obtain ⟨name, text⟩ := v
    cases hname : path? name with
    | none =>
      rw [source_cons_of_none hname]
      exact ih H.of_cons hd
    | some path =>
      rw [source_cons_of_some hname, overlay_cons]
      exact ih H.of_cons (k.hasTable_setPath hname (H.path List.mem_cons_self hname) text hd)

end Setting

end Cordon
