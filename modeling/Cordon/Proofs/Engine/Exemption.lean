import Cordon.Engine
import Cordon.Proofs.Text.Split
/-!
Which attempts an engine exempts that is made from settings: those that one of the exemptions in the
settings exempts. Only the words in its lists count that are not empty, and only which they are; a
list without such a word comes to the same as no list.
-/
namespace Cordon

open Text

theorem Classifier.names_nil (t : Thread) : Classifier.names [] t = false := by
  rw [Classifier.names]
  split <;> rfl

theorem Ruling.ext {r r' : Ruling} (hexempt : r.exempt = r'.exempt)
    (hlooked : r.looked = r'.looked) : r = r' := by
  cases r
  cases r'
  exact congr (congrArg mk hexempt) hlooked

theorem CallStack.contains_iff {s : CallStack} {marker : String} :
    s.contains marker = true ↔ ∃ frame ∈ s.frames, marker.toList <:+: frame.toList := by
  simp only [contains, List.any_eq_true, occursIn_iff]

namespace Exemption

variable {t : Thread} {frames : List String}

theorem judge_any_singleton (e : Exemption) : (any [e]).judge t frames = e.judge t frames := by
  simp [any]

/-- The threads are asked about last, and no frame is looked at for them. -/
theorem judge_any_threads (e : Exemption) (harness : Classifier) :
    (any [e, threads harness]).judge t frames =
      ⟨(e.judge t frames).exempt || harness t, (e.judge t frames).looked⟩ := by
  cases h : (e.judge t frames).exempt with
  | true => simp [any, h]
  | false => simp [any, h, threads]

theorem exempt_markers {texts : List String} :
    ((markers texts).judge t frames).exempt = true ↔
      ∃ marker ∈ texts, marker ≠ "" ∧ ∃ frame ∈ frames, marker.toList <:+: frame.toList := by
  simp only [markers, List.any_eq_true, List.mem_filter, decide_eq_true_eq, and_assoc,
    CallStack.contains_iff]
  rfl

theorem looked_markers {texts : List String} :
    ((markers texts).judge t frames).looked = true ↔ ∃ marker ∈ texts, marker ≠ "" := by
  simp [markers]

end Exemption

namespace Engine

@[simp] theorem store_ofSettings (store : StoreId) (x : EngineSettings) :
    (ofSettings store x).store = store := by
  rw [ofSettings]
  split <;> rfl

variable {store : StoreId} {x y : EngineSettings} {t : Thread} {frames : List String}

/-- An empty list asks nothing, which comes to the same as asking with it. -/
theorem judge_ofSettings : (ofSettings store x).exemption.judge t frames =
    let marked := (Exemption.markers x.exemptStackMarkers).judge t frames
    ⟨marked.exempt || Classifier.names x.harnessThreadPrefixes t, marked.looked⟩ := by
  rw [ofSettings, settingsExemption]
  cases x.exemptStackMarkers with
  | nil =>
    cases x.harnessThreadPrefixes with
    | nil =>
      rw [Classifier.names_nil]
      rfl
    | cons => rfl
  | cons =>
    cases x.harnessThreadPrefixes with
    | nil =>
      dsimp only
      rw [Classifier.names_nil, Bool.or_false]
      exact Exemption.judge_any_singleton _
    | cons => exact Exemption.judge_any_threads _ _

/-- Who is exempt: a stack with a marker in it, and a thread whose name starts as one of the harness's.
The empty word is in no list that counts. -/
theorem exempt_ofSettings_iff : ((ofSettings store x).exemption.judge t frames).exempt = true ↔
    (∃ marker ∈ x.exemptStackMarkers, marker ≠ "" ∧
      ∃ frame ∈ frames, marker.toList <:+: frame.toList) ∨
    ∃ name ∈ t.name, ∃ start ∈ x.harnessThreadPrefixes, start ≠ "" ∧
      start.toList <+: name.toList := by
  rw [judge_ofSettings, Bool.or_eq_true, Exemption.exempt_markers, Classifier.names_iff]

theorem looked_ofSettings_iff : ((ofSettings store x).exemption.judge t frames).looked = true ↔
    ∃ marker ∈ x.exemptStackMarkers, marker ≠ "" := by
  rw [judge_ofSettings, Exemption.looked_markers]

theorem exists_word_congr {words words' : List String}
    (h : ∀ word, word ≠ "" → (word ∈ words ↔ word ∈ words')) {P : String → Prop}
    (hP : ∀ word, P word → word ≠ "") : (∃ word ∈ words, P word) ↔ ∃ word ∈ words', P word :=
  exists_congr fun word => and_congr_left fun hword => h word (hP word hword)

theorem ofSettings_eq (store : StoreId) (x : EngineSettings) :
    ofSettings store x = ⟨store, (ofSettings store x).exemption, max 1 x.stackSnippetDepth⟩ := by
  rw [ofSettings]
  split <;> rfl

/-- Settings that name the same words besides the empty one make the same engine. -/
theorem ofSettings_congr (hdepth : x.stackSnippetDepth = y.stackSnippetDepth)
    (hmarkers : ∀ marker, marker ≠ "" →
      (marker ∈ x.exemptStackMarkers ↔ marker ∈ y.exemptStackMarkers))
    (hstarts : ∀ start, start ≠ "" →
      (start ∈ x.harnessThreadPrefixes ↔ start ∈ y.harnessThreadPrefixes)) :
    ofSettings store x = ofSettings store y := by
  have hexempt (t : Thread) (frames : List String) :
      ((ofSettings store x).exemption.judge t frames).exempt =
        ((ofSettings store y).exemption.judge t frames).exempt := by
    rw [Bool.eq_iff_iff, exempt_ofSettings_iff, exempt_ofSettings_iff]
    exact or_congr (exists_word_congr hmarkers fun _ h => h.1) <| exists_congr fun name =>
      and_congr_right fun _ => exists_word_congr hstarts fun _ h => h.1
  have hlooked (t : Thread) (frames : List String) :
      ((ofSettings store x).exemption.judge t frames).looked =
        ((ofSettings store y).exemption.judge t frames).looked := by
    rw [Bool.eq_iff_iff, looked_ofSettings_iff, looked_ofSettings_iff]
    exact exists_word_congr hmarkers fun _ h => h
  have hexemption : (ofSettings store x).exemption = (ofSettings store y).exemption :=
    congrArg Exemption.mk <| funext fun t => funext fun frames =>
      Ruling.ext (hexempt t frames) (hlooked t frames)
  rw [ofSettings_eq store x, ofSettings_eq store y, hexemption, hdepth]

/-- One engine decides as the other, whatever it is asked and in whatever state. -/
structure DecidesAs (e e' : Engine) : Prop where
  host : ∀ w t host port caller stack,
    e.decide w t host port caller stack = e'.decide w t host port caller stack
  connection : ∀ w t address hostnames port caller stack,
    e.decideConnection w t address hostnames port caller stack =
      e'.decideConnection w t address hostnames port caller stack

theorem DecidesAs.of_eq {e e' : Engine} (h : e = e') : DecidesAs e e' := by
  subst h
  exact ⟨fun _ _ _ _ _ _ => rfl, fun _ _ _ _ _ _ _ => rfl⟩

/-- An engine that is made from settings exempts an attempt exactly if a frame of its stack holds a
marker that is not empty, or the name of its thread starts with a prefix that is not empty. So the
order of either list does not matter to any decision, nor do repetitions and empty entries, and an
engine whose lists hold nothing else decides as one without exemptions. -/
theorem exempt_by_entries (store : StoreId) (x : EngineSettings) :
    (∀ t frames, ((ofSettings store x).exemption.judge t frames).exempt = true ↔
      (∃ marker ∈ x.exemptStackMarkers, marker ≠ "" ∧
        ∃ frame ∈ frames, marker.toList <:+: frame.toList) ∨
      ∃ name ∈ t.name, ∃ start ∈ x.harnessThreadPrefixes, start ≠ "" ∧
        start.toList <+: name.toList) ∧
    (∀ markers starts,
      (∀ marker, marker ≠ "" → (marker ∈ markers ↔ marker ∈ x.exemptStackMarkers)) →
      (∀ start, start ≠ "" → (start ∈ starts ↔ start ∈ x.harnessThreadPrefixes)) →
      DecidesAs (ofSettings store
        { x with exemptStackMarkers := markers, harnessThreadPrefixes := starts })
        (ofSettings store x)) ∧
    ((∀ marker ∈ x.exemptStackMarkers, marker = "") →
      (∀ start ∈ x.harnessThreadPrefixes, start = "") →
      DecidesAs (ofSettings store x) (({ store } : Engine).withStackDepth x.stackSnippetDepth)) := by
  refine ⟨fun t frames => exempt_ofSettings_iff, fun markers starts hmarkers hstarts => ?_,
    fun hmarkers hstarts => ?_⟩
  · exact .of_eq (ofSettings_congr rfl hmarkers hstarts)
  · have none_of_empty {words : List String} (h : ∀ word ∈ words, word = "") (word : String)
        (hword : word ≠ "") : word ∈ words ↔ word ∈ [] :=
      iff_of_false (fun hmem => hword (h word hmem)) List.not_mem_nil
    exact .of_eq <| ofSettings_congr (y := ⟨x.stackSnippetDepth, [], []⟩) rfl
      (none_of_empty hmarkers) (none_of_empty hstarts)

/-- Two lists in another order, with a repetition and with empty entries; and lists of nothing but
empty entries, which exempt nobody. -/
theorem exempt_by_entries_respelled :
    let x : EngineSettings := ⟨12, ["fetch::"], ["infra-", "harness-"]⟩
    let blank : EngineSettings := ⟨12, ["", ""], [""]⟩
    ((ofSettings 1 x).exemption.judge ⟨7, some "harness-2"⟩ []).exempt = true ∧
    ((ofSettings 1 x).exemption.judge ⟨8, none⟩ ["app::main"]).exempt = false ∧
    DecidesAs (ofSettings 1 ⟨12, ["", "fetch::", "fetch::"], ["harness-", "", "infra-"]⟩)
      (ofSettings 1 x) ∧
    DecidesAs (ofSettings 1 blank) (({ store := 1 } : Engine).withStackDepth 12) := by
  intro x blank
  obtain ⟨exempt, same, -⟩ := exempt_by_entries 1 x
  obtain ⟨-, -, without⟩ := exempt_by_entries 1 blank
  refine ⟨(exempt ..).mpr (.inr ⟨_, rfl, "harness-", by decide, by decide, by decide⟩), ?_,
    same ["", "fetch::", "fetch::"] ["harness-", "", "infra-"] ?_ ?_,
    without (by decide) (by decide)⟩
  · rw [← Bool.not_eq_true, exempt]
    rintro (⟨marker, hmarker, -, frame, hframe, hmem⟩ | ⟨name, hname, -⟩)
    · obtain rfl := List.mem_singleton.mp hmarker
      obtain rfl := List.mem_singleton.mp hframe
      exact absurd (occursIn_iff.mpr hmem) (by decide +kernel)
    · contradiction
  · intro marker hmarker
    simp [x, hmarker]
  · intro start hstart
    simp [x, hstart, or_comm]

end Engine
end Cordon
