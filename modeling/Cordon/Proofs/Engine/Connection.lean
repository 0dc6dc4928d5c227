import Cordon.Proofs.Engine.Judgement
import Cordon.Proofs.Policy.Union
import Cordon.Proofs.Store.Reads
/-!
A connection is decided on the set of its names and its address. The engine leaves out empty names
and names that only repeat the address; nothing is lost by that, since a pattern that matches the
empty host matches every host, and the address is looked at anyway.
-/
namespace Cordon

theorem Decision.exists_eq_block {d : Decision} (h : d.isBlocked = true) : ∃ b, d = .block b := by
  cases d with
  | allow => contradiction
  | block b => exact ⟨b, rfl⟩

namespace Engine

variable {policy : Policy} {address host : String} {names : List String}

/-! ## The names that are left out -/

theorem mem_namesFor :
    host ∈ namesFor address names ↔ host ∈ names ∧ host ≠ "" ∧ host ≠ address := by
  rw [namesFor, List.mem_filter, Bool.and_eq_true, decide_eq_true_eq, decide_eq_true_eq]

/-- Nothing that holds of all hosts once it holds of the empty one is lost with the names that are
left out. -/
theorem exists_mem_namesFor (address : String) (names : List String) {P : String → Prop}
    (hempty : P "" → ∀ host, P host) :
    (∃ host ∈ address :: namesFor address names, P host) ↔
      ∃ host ∈ address :: names, P host := by
  constructor
  · rintro ⟨host, hmem, hhost⟩
    refine ⟨host, ?_, hhost⟩
    rcases List.mem_cons.mp hmem with rfl | hmem
    · exact List.mem_cons_self
    · exact List.mem_cons_of_mem _ (mem_namesFor.mp hmem).1
  · rintro ⟨host, hmem, hhost⟩
    by_cases haddress : host = address
    · exact ⟨address, List.mem_cons_self, haddress ▸ hhost⟩
    · by_cases hhost' : host = ""
      · exact ⟨address, List.mem_cons_self, hempty (hhost' ▸ hhost) address⟩
      · have hmem := (List.mem_cons.mp hmem).resolve_left haddress
        exact ⟨host, List.mem_cons_of_mem _ (mem_namesFor.mpr ⟨hmem, hhost', haddress⟩), hhost⟩

theorem mem_namesFor_congr {others : List String}
    (h : ∀ host, host ≠ "" → host ≠ address → (host ∈ others ↔ host ∈ names)) (host : String) :
    host ∈ address :: namesFor address others ↔ host ∈ address :: namesFor address names := by
  rw [List.mem_cons, List.mem_cons, mem_namesFor, mem_namesFor]
  exact or_congr_right (and_congr_left fun hhost => h host hhost.1 hhost.2)

/-- What a policy admits depends on the set of names. -/
theorem admits_congr {others : List String} (h : ∀ host, host ∈ others ↔ host ∈ names) :
    admits policy others = admits policy names := by
  rw [admits, admits, Bool.eq_iff_iff, Bool.and_eq_true, Bool.and_eq_true, List.all_eq_true,
    List.all_eq_true, List.any_eq_true, List.any_eq_true]
  simp only [h]

theorem admits_eq_false_iff_names : admits policy (address :: namesFor address names) = false ↔
    (∃ host ∈ address :: names, policy.isExplicitlyBlocked host = true) ∨
      ∀ host ∈ address :: names, policy.isListedAsAllowed host = false := by
  have hblocked := exists_mem_namesFor address names
    (P := fun host => policy.isExplicitlyBlocked host = true) isExplicitlyBlocked_of_empty
  have hlisted := exists_mem_namesFor address names
    (P := fun host => policy.isListedAsAllowed host = true) isListedAsAllowed_of_empty
  rw [← hblocked, admits, Bool.and_eq_false_iff, List.all_eq_false, ← Bool.not_eq_true,
    List.any_eq_true, hlisted]
  simp only [Bool.not_eq_true', Bool.not_eq_false, not_exists, not_and, Bool.not_eq_true]

/-! ## The name that is reported -/

/-- The host that a block on a connection is reported under: the first of its names that is
explicitly blocked, else the first of its names, else its address. -/
inductive ReportedAs (policy : Policy) (address : String) : List String → String → Prop
  | blocked {before after : List String} {name : String} :
    (∀ other ∈ before, policy.isExplicitlyBlocked other = false) →
    policy.isExplicitlyBlocked name = true →
    ReportedAs policy address (before ++ name :: after) name
  | first {name : String} {names : List String} :
    (∀ other ∈ name :: names, policy.isExplicitlyBlocked other = false) →
    ReportedAs policy address (name :: names) name
  | address : ReportedAs policy address [] address

theorem reportedAs_iff :
    ReportedAs policy address names host ↔ reported (some policy) address names = host := by
  rw [reported]
  dsimp only [Option.any_some]
  constructor
  · rintro (⟨hbefore, hname⟩ | ⟨hnone⟩ | _)
    · rw [List.find?_append,
        List.find?_eq_none.mpr fun other hother => by simp [hbefore other hother],
        List.find?_cons_of_pos hname]
      rfl
    · rw [List.find?_eq_none.mpr fun other hother => by simp [hnone other hother]]
      rfl
    · rfl
  · rintro rfl
    cases hfind : names.find? fun name => policy.isExplicitlyBlocked name with
    | some name =>
      obtain ⟨hname, before, after, rfl, hbefore⟩ := List.find?_eq_some_iff_append.mp hfind
      exact .blocked (fun other hother => by simpa using hbefore other hother) hname
    | none =>
      have hnone : ∀ other ∈ names, policy.isExplicitlyBlocked other = false :=
        fun other hother => by simpa using List.find?_eq_none.mp hfind other hother
      cases names with
      | nil => exact .address
      | cons name names => exact .first hnone

/-! ## A connection without names -/

/-- An address that was resolved from no name is judged as a host. -/
theorem judgeAddress_nil (e : Engine) (address : String) (port : UInt16) (caller : String) :
    e.judgeAddress address [] port caller = e.judgeHost address port.toNat caller := by
  funext policy stack
  rw [judgeAddress, judgeHost]
  cases policy.isExplicitlyBlocked address with
  | true => rfl
  | false =>
    cases policy.isListedAsAllowed address with
    | true => rfl
    | false => rfl

theorem decideConnection_nil (e : Engine) (w : Stores) (t : Thread) (address : Address)
    (port : UInt16) (caller : String) (stack : CallStack) :
    e.decideConnection w t address [] port caller stack =
      e.decide w t address.text port.toNat caller stack := by
  rw [decideConnection, decide, judgeAddress_nil]

/-! ## Verdict and report -/

/-- Where a policy is active and nothing is exempt, a connection is blocked if its address or one of
its names is explicitly blocked, or if none of them is allowed. The order of the names does not
matter to that, nor does their number, nor do empty names and names that repeat the address. -/
theorem decideConnection_by_names {e : Engine} {w : Stores} {t : Thread} {policy : Policy}
    (hpolicy : (w.get e.store t).1 = some policy) {stack : CallStack}
    (hexempt : (e.exemption.judge t stack.frames).exempt = false) (address : Address)
    (names : List String) (port : UInt16) (caller : String) :
    let decision (names : List String) : Decision :=
      (e.decideConnection w t address names port caller stack).1.decision
    ((decision names).isBlocked = true ↔
      (∃ host ∈ address.text :: names, policy.isExplicitlyBlocked host = true) ∨
        ∀ host ∈ address.text :: names, policy.isListedAsAllowed host = false) ∧
    (∀ others : List String,
      (∀ host, host ≠ "" → host ≠ address.text → (host ∈ others ↔ host ∈ names)) →
      (decision others).isBlocked = (decision names).isBlocked) ∧
    (∀ b, decision names = .block b → ReportedAs policy address.text
      (names.filter fun name => name ≠ "" && name ≠ address.text) b.host) ∧
    e.decideConnection w t address [] port caller stack =
      e.decide w t address.text port.toNat caller stack := by
  have hblocked (names : List String) :=
    isBlocked_decideConnection hpolicy hexempt address names port caller
  refine ⟨?_, fun others hothers => ?_, fun b hb => ?_, decideConnection_nil ..⟩
  · rw [hblocked, Bool.not_eq_true', admits_eq_false_iff_names]
  · rw [hblocked, hblocked, admits_congr (mem_namesFor_congr hothers)]
  · rcases e.decision_decideConnection_eq w t address names port caller stack with
      hd | ⟨snippet, hd⟩
    · exact absurd (hd.symm.trans hb) nofun
    · obtain rfl := Decision.block.inj (hd.symm.trans hb)
      rw [hpolicy]
      exact reportedAs_iff.mpr rfl

/-- The blocked name is reported though a name that is left out and one that is allowed stand
before it; in another order, with an empty name and a repetition, the verdict is the same. -/
theorem decideConnection_by_names_shared : ∃ policy b,
    Policy.build ⟨["*.test"], ["ads.*"]⟩ = .ok policy ∧
    (({ store := 1 } : Engine).decideConnection (.activated policy) ⟨1, none⟩ (.v4 0x0A000001#32)
      ["10.0.0.1", "shop.test", "ads.test"] 443 "native-connect" (.uncaptured [])).1.decision =
        .block b ∧
    b.host = "ads.test" ∧
    (({ store := 1 } : Engine).decideConnection (.activated policy) ⟨1, none⟩ (.v4 0x0A000001#32)
      ["ads.test", "", "shop.test", "ads.test"] 443 "native-connect"
        (.uncaptured [])).1.decision.isBlocked = true := by
  obtain ⟨policy, hbuild⟩ : ∃ policy, Policy.build ⟨["*.test"], ["ads.*"]⟩ = .ok policy := ⟨_, rfl⟩
  have hads : ({ policy with generation := 0 } : Policy).isExplicitlyBlocked "ads.test" = true :=
    (Policy.isExplicitlyBlocked_of_build hbuild _).trans (by decide +kernel)
  have hshop : ({ policy with generation := 0 } : Policy).isExplicitlyBlocked "shop.test" = false :=
    (Policy.isExplicitlyBlocked_of_build hbuild _).trans (by decide +kernel)
  have hpolicy : ((Stores.activated policy).get 1 ⟨1, none⟩).1 =
      some { policy with generation := 0 } := rfl
  have hexempt : (Exemption.none.judge ⟨1, none⟩ (CallStack.uncaptured []).frames).exempt = false :=
    rfl
  obtain ⟨verdict, same, report, -⟩ := decideConnection_by_names (e := { store := 1 }) hpolicy
    hexempt (.v4 0x0A000001#32) ["10.0.0.1", "shop.test", "ads.test"] 443 "native-connect"
  have hblocked := verdict.mpr (.inl ⟨"ads.test", by decide, hads⟩)
  obtain ⟨b, hb⟩ := Decision.exists_eq_block hblocked
  refine ⟨policy, b, hbuild, hb, ?_, (same _ fun host hempty haddress => ?_).trans hblocked⟩
  · have hkept : ["10.0.0.1", "shop.test", "ads.test"].filter (fun name => name ≠ "" &&
      name ≠ (Address.v4 0x0A000001#32).text) = ["shop.test", "ads.test"] := by decide
    rw [← reportedAs_iff.mp (report b hb), hkept, reported]
    simp [hshop, hads]
  · have haddress : host ≠ "10.0.0.1" := haddress
    simp [hempty, haddress, or_comm]

end Engine
end Cordon
