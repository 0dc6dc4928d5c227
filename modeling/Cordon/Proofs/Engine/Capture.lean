import Cordon.Proofs.Engine.Exemption
import Cordon.Proofs.Engine.Judgement
import Cordon.Proofs.Store.Reads
/-!
When a stack that was left uncaptured is captured for a decision: where an exemption looks at its
frames, and where a block reports them. What exempts or allows an attempt without looking leaves the
stack alone.
-/
namespace Cordon.Engine

variable {e : Engine} {t : Thread} {host : String} {port : Int} {caller : String} {stack : CallStack}

/-- Once a policy applies and nothing is exempt, only a block looks at the frames. -/
theorem captured_judgeHost {policy : Policy} :
    (e.judgeHost host port caller policy stack).stack.captured =
      (stack.captured || (e.judgeHost host port caller policy stack).decision.isBlocked) := by
  rw [judgeHost]
  split
  · rfl
  · split
    · exact (Bool.or_false _).symm
    · rfl

theorem captured_judge {policy? : Option Policy} :
    (e.judge t stack policy? (e.judgeHost host port caller)).stack.captured =
      (stack.captured || policy?.isSome && ((e.exemption.judge t stack.frames).looked ||
        (e.judge t stack policy? (e.judgeHost host port caller)).decision.isBlocked)) := by
  cases policy? with
  | none => exact (Bool.or_false _).symm
  | some policy =>
    rw [judge, Option.isSome_some, Bool.true_and, ← Bool.or_assoc]
    cases (e.exemption.judge t stack.frames).exempt with
    | true => exact (Bool.or_false _).symm
    | false => exact captured_judgeHost

theorem captured_decide (w : Stores) :
    (e.decide w t host port caller stack).1.stack.captured =
      (stack.captured || (w.isActive e.store t).1 && ((e.exemption.judge t stack.frames).looked ||
        (e.decide w t host port caller stack).1.decision.isBlocked)) :=
  captured_judge

/-- An exempt attempt passes, with a policy or without one. -/
theorem decision_decide_of_exempt (w : Stores)
    (h : (e.exemption.judge t stack.frames).exempt = true) :
    (e.decide w t host port caller stack).1.decision = .allow := by
  have hd := e.decision_judge t host port caller (w.get e.store t).1 stack
  rw [h, Bool.true_or, if_pos rfl] at hd
  exact hd

/-- An engine that is made from settings captures the stack of an attempt exactly if a policy applies to
the thread, and either the settings name a marker that is not empty or the attempt is blocked. So the
stack is left alone while no policy applies; and while no marker counts, for every attempt that is
allowed, in particular for those of the harness's own threads. -/
theorem captured_as_needed (store : StoreId) (x : EngineSettings) (w : Stores) (t : Thread)
    (host : String) (port : Int) (caller : String) (frames : List String) :
    let j := ((ofSettings store x).decide w t host port caller (.uncaptured frames)).1
    (j.stack.captured = true ↔ (w.isActive store t).1 = true ∧
      ((∃ marker ∈ x.exemptStackMarkers, marker ≠ "") ∨ j.decision.isBlocked = true)) ∧
    ((w.isActive store t).1 = false → j.stack.captured = false) ∧
    ((∀ marker ∈ x.exemptStackMarkers, marker = "") →
      (j.decision = .allow ∨ ∃ name ∈ t.name, ∃ start ∈ x.harnessThreadPrefixes,
        start ≠ "" ∧ start.toList <+: name.toList) →
      j.stack.captured = false) := by
  intro j
  have hcaptured : j.stack.captured = true ↔ (w.isActive store t).1 = true ∧
      ((∃ marker ∈ x.exemptStackMarkers, marker ≠ "") ∨ j.decision.isBlocked = true) := by
    rw [captured_decide, store_ofSettings, CallStack.uncaptured, Bool.false_or, Bool.and_eq_true,
      Bool.or_eq_true, looked_ofSettings_iff]
    rfl
  refine ⟨hcaptured, fun hactive => ?_, fun hmarkers hpass => ?_⟩
  · rw [← Bool.not_eq_true, hcaptured, hactive]
    exact fun h => Bool.false_ne_true h.1
  · have hallowed : j.decision = .allow := by
      rcases hpass with hallowed | hthread
      · exact hallowed
      · exact decision_decide_of_exempt w (exempt_ofSettings_iff.mpr (.inr hthread))
    rw [← Bool.not_eq_true, hcaptured, hallowed]
    rintro ⟨-, ⟨marker, hmem, hmarker⟩ | hblocked⟩
    · exact hmarker (hmarkers marker hmem)
    · exact Bool.false_ne_true hblocked

/-- A thread of the harness passes without a capture while all markers are empty, and with one as soon
as a marker counts; another thread is blocked with one, and passes without one where no policy applies. -/
theorem captured_as_needed_harness :
    let blank : EngineSettings := ⟨12, ["", ""], ["harness-"]⟩
    let captured (x : EngineSettings) (w : Stores) (t : Thread) : Bool :=
      ((ofSettings 1 x).decide w t "a.test" 443 "test" (.uncaptured ["app::main"])).1.stack.captured
    captured blank (.activated .blockAll) ⟨7, some "harness-2"⟩ = false ∧
    captured ⟨12, ["fetch::"], ["harness-"]⟩ (.activated .blockAll) ⟨7, some "harness-2"⟩ = true ∧
    captured blank (.activated .blockAll) ⟨8, none⟩ = true ∧
    captured blank {} ⟨8, none⟩ = false := by
  intro blank captured
  have needed (x : EngineSettings) (w : Stores) (t : Thread) :=
    captured_as_needed 1 x w t "a.test" 443 "test" ["app::main"]
  have hblocked : ((ofSettings 1 blank).decide (.activated .blockAll) ⟨8, none⟩ "a.test" 443 "test"
      (.uncaptured ["app::main"])).1.decision.isBlocked = true := by decide +kernel
  exact ⟨(needed ..).2.2 (by decide) (.inr ⟨_, rfl, "harness-", by decide, by decide, by decide⟩),
    (needed ..).1.mpr ⟨rfl, .inl ⟨"fetch::", by decide, by decide⟩⟩,
    (needed ..).1.mpr ⟨rfl, .inr hblocked⟩, (needed ..).2.1 rfl⟩

end Cordon.Engine
