import Cordon.Proofs.Lifecycle.Play
import Cordon.Proofs.Pattern.Parsing
import Cordon.Proofs.Policy.Rejection
/-!
When a test cannot begin, and what is left behind then. A guarded test fails to begin over the first
of its texts that is no pattern; a test that opts out is not asked for its texts at all. A test that
does not begin, and one that begins unguarded, leaves the stores as they were, so that a run goes on
as if it had never been tried.
-/
namespace Cordon.Lifecycle

open Policy Stores Text

variable {l : Lifecycle} {w : Stores} {t : Thread} {a : Annotations} {r : Pattern.Rejection}

/-! ## Texts that are no patterns -/

/-- The texts that a guarded test is put together from, in the order in which they are read. -/
def texts (l : Lifecycle) (a : Annotations) : List String :=
  (l.defaults.allowedHosts ++ l.defaults.blockedHosts) ++ (a.allowedHosts ++ a.blockedHosts)

theorem guards_iff : l.guards a = true ↔ a.allowNetworkRequests = false ∧
    (a.blockNetworkRequests = true ∨ l.defaults.applyToAllTests = true) := by
  rw [guards, Bool.and_eq_true, Bool.not_eq_true', Bool.or_eq_true]

theorem resolve_eq_error_iff :
    l.resolve a = .error r ↔ l.guards a = true ∧ FirstRejection (l.texts a) r := by
  rw [resolve]
  split
  · next hguards =>
    have hown (c : Policy) : (do let own ← build a.draft; return some (c.merge own)) =
        (.error r : Except Pattern.Rejection (Option Policy)) ↔ build a.draft = .error r := by
      rw [bind_eq_error_iff]
      exact or_iff_left fun ⟨_, _, h⟩ => nomatch h
    have hdefaults : (∃ c, build l.defaults.draft = .ok c) ↔
        AllParse (l.defaults.allowedHosts ++ l.defaults.blockedHosts) := exists_build_iff
    rw [bind_eq_error_iff, and_iff_right hguards, texts, firstRejection_append, ← hdefaults]
    simp only [hown, exists_and_right, build_eq_error_iff]
    rfl
  · next hguards => exact iff_of_false nofun fun h => hguards h.1

theorem fst_beforeTest_eq_error_iff :
    (l.beforeTest w t a).1 = .error r ↔ l.resolve a = .error r := by
  rw [beforeTest]
  split
  · next hresolve => rw [hresolve]
  · next hresolve => rw [hresolve]
  · next hresolve =>
    rw [hresolve]
    exact iff_of_false nofun nofun

theorem fst_openScope_eq_error_iff :
    (l.openScope w t a).1 = .error r ↔ (l.beforeTest w t a).1 = .error r := by
  change (l.beforeTest w t a).1.map _ = _ ↔ _
  cases (l.beforeTest w t a).1 with
  | error rejection => exact Iff.of_eq (by rw [Except.map, Except.error.injEq, Except.error.injEq])
  | ok policy? => exact iff_of_false nofun nofun

/-! ## What is left -/

/-- Nothing is written for a test unless a policy is activated for it. -/
theorem snd_beforeTest (h : ∀ policy, (l.beforeTest w t a).1 ≠ .ok (some policy)) :
    (l.beforeTest w t a).2 = w := by
  rw [beforeTest] at h ⊢
  split
  · rfl
  · rfl
  · next policy hresolve =>
    rw [hresolve] at h
    exact absurd rfl (h _)

theorem snd_beforeTest_of_error (h : (l.beforeTest w t a).1 = .error r) :
    (l.beforeTest w t a).2 = w := by
  apply snd_beforeTest
  rw [h]
  exact nofun

theorem snd_beforeTest_of_unguarded (h : (l.beforeTest w t a).1 = .ok none) :
    (l.beforeTest w t a).2 = w := by
  apply snd_beforeTest
  rw [h]
  exact nofun

theorem snd_openScope_of_error (h : (l.openScope w t a).1 = .error r) :
    (l.openScope w t a).2 = w :=
  snd_beforeTest_of_error (fst_openScope_eq_error_iff.mp h)

variable {x y : Held} {m : Move} {reply : Reply} {log rest : List (Move × Reply)}

theorem Idle.eq_of_play (H : Idle m reply) (hplay : m.play x = (reply, y)) : y = x := by
  cases H with
  | failed =>
    obtain ⟨hreply, rfl⟩ := Prod.mk.inj hplay
    have hstores := snd_beforeTest_of_error (Reply.activated.inj hreply)
    exact congrArg (Held.mk · x.snapshots) hstores
  | unguarded =>
    obtain ⟨hreply, rfl⟩ := Prod.mk.inj hplay
    have hstores := snd_beforeTest_of_unguarded (Reply.activated.inj hreply)
    exact congrArg (Held.mk · x.snapshots) hstores
  | unopened =>
    obtain ⟨hreply, rfl⟩ := Prod.mk.inj hplay
    have hstores := snd_openScope_of_error (Reply.opened.inj hreply)
    exact congrArg (Held.mk · x.snapshots) hstores

/-- Whichever idle moves are left out, all others get the replies that they got. -/
theorem Plays.without (H : Plays x log y) (hrest : Without log rest) : Plays x rest y := by
  induction hrest generalizing x with
  | nil => exact H
  | keep _ ih =>
    cases H with
    | move hplay H => exact .move hplay (ih H)
  | leave hidle _ ih =>
    cases H with
    | move hplay H =>
      obtain rfl := hidle.eq_of_play hplay
      exact ih H

/-- A test fails to begin if it is guarded and one of its texts is no pattern; the error names the
first such text, the defaults' texts before its own and the allowed ones before the blocked ones.
Then, as where a test begins unguarded, the stores are left as they were, and whatever is played
later goes as if the test had never been tried. -/
theorem activation_fails (l : Lifecycle) (w : Stores) (t : Thread) (a : Annotations) :
    ((∃ r, (l.beforeTest w t a).1 = .error r) ↔
      a.allowNetworkRequests = false ∧
      (a.blockNetworkRequests = true ∨ l.defaults.applyToAllTests = true) ∧
      ∃ text ∈ l.texts a, ∃ r, Pattern.parse text = .error r) ∧
    (∀ r, (l.openScope w t a).1 = .error r ↔ (l.beforeTest w t a).1 = .error r) ∧
    (∀ r, (l.beforeTest w t a).1 = .error r → ∃ before text after,
      l.texts a = before ++ text :: after ∧ (∀ s ∈ before, ∃ p, Pattern.parse s = .ok p) ∧
        Pattern.parse text = .error r ∧ Trims text.toList r.text.toList) ∧
    (∀ r, (l.beforeTest w t a).1 = .error r → (l.beforeTest w t a).2 = w) ∧
    (∀ r, (l.openScope w t a).1 = .error r → (l.openScope w t a).2 = w) ∧
    ((l.beforeTest w t a).1 = .ok none → (l.beforeTest w t a).2 = w) ∧
    (∀ x y log rest, Plays x log y → Without log rest → Plays x rest y) := by
  refine ⟨?_, fun r => fst_openScope_eq_error_iff, ?_, fun r => snd_beforeTest_of_error,
    fun r => snd_openScope_of_error, snd_beforeTest_of_unguarded, fun x y log rest => Plays.without⟩
  · simp only [fst_beforeTest_eq_error_iff, resolve_eq_error_iff, exists_and_left, guards_iff,
      exists_firstRejection_iff, and_assoc]
  · intro r h
    obtain ⟨-, H⟩ := resolve_eq_error_iff.mp (fst_beforeTest_eq_error_iff.mp h)
    obtain ⟨before, text, after, htexts, hbefore, herror⟩ := firstRejection_iff.mp H
    exact ⟨before, text, after, htexts, hbefore, herror, Pattern.trims_of_rejected herror⟩

/-- Defaults of which one text is no pattern. -/
def faulty : Lifecycle := ⟨1, { allowedHosts := ["ok.test"], blockedHosts := [" bad host "] }⟩

/-- A scope is tried between the activation of a policy and a reading of it. The text of the defaults
is named, without the white space around it and not the test's own that is no pattern either; and
what is read is what would have been read. -/
theorem activation_fails_between : ∃ x y p,
    Plays x [(.opens faulty ⟨1, none⟩ (Annotations.blocking.withAllowedHosts ["a/b"]),
        .opened (.error ⟨"bad host", .foreignCharacter⟩)),
      (.calls (.op (.get 1 ⟨1, none⟩)), .answered (.policy (some p)))] y ∧
    Plays x [(.calls (.op (.get 1 ⟨1, none⟩)), .answered (.policy (some p)))] y ∧
    (faulty.beforeTest x.stores ⟨1, none⟩ .allowing).2 = x.stores := by
  let x : Held := { stores := ((Stores.create {} .noHarness).2.set 1 ⟨1, none⟩ {}).2 }
  have played := Plays.move (x := x)
    (m := .opens faulty ⟨1, none⟩ (Annotations.blocking.withAllowedHosts ["a/b"])) rfl
    (.move (m := .calls (.op (.get 1 ⟨1, none⟩))) rfl .done)
  have fails := activation_fails faulty x.stores ⟨1, none⟩
  have leaves := (fails .allowing).2.2.2.2.2
  exact ⟨x, _, _, played, leaves.2 _ _ _ _ played (.leave .unopened (.keep .nil)), leaves.1 rfl⟩

end Cordon.Lifecycle
