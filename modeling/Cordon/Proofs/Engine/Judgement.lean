import Cordon.Engine
/-!
What an engine answers, said by the policy that it is served and the ruling of its exemption. How a
stack is looked at on the way does not matter to the answer.
-/
namespace Cordon

open Text

/-- The decision on a host that a stack stands for, if it is blocked with that. -/
def Decision.ofStack? (host : String) (port : Int) (caller : String) : Option String → Decision
  | none => .allow
  | some stack => .block ⟨host, port, caller, stack⟩

/-- A judgement under a policy, or without one, is counted as what it is. -/
structure Judgement.Faithful (policy? : Option Policy) (j : Judgement) : Prop where
  blocked : j.outcome = .blocked ↔ j.decision.isBlocked = true
  unconfigured : j.outcome = .noConfiguration ↔ policy? = none

namespace Engine

theorem decision_judgeHost (e : Engine) (host : String) (port : Int) (caller : String)
    (policy : Policy) (stack : CallStack) :
    (e.judgeHost host port caller policy stack).decision =
      if policy.isAllowed host then .allow
      else .block ⟨host, port, caller, stack.snippet e.stackDepth⟩ := by
  rw [judgeHost, Policy.isAllowed]
  cases policy.isExplicitlyBlocked host with
  | true => rfl
  | false => cases policy.isListedAsAllowed host <;> rfl

theorem decision_judge (e : Engine) (t : Thread) (host : String) (port : Int) (caller : String)
    (policy? : Option Policy) (stack : CallStack) :
    (e.judge t stack policy? (e.judgeHost host port caller)).decision =
      if (e.exemption.judge t stack.frames).exempt || policy?.all (·.isAllowed host) then .allow
      else .block ⟨host, port, caller, stack.snippet e.stackDepth⟩ := by
  cases policy? with
  | none => simp [judge]
  | some policy =>
    rw [judge]
    cases (e.exemption.judge t stack.frames).exempt with
    | true => rfl
    | false => exact decision_judgeHost e host port caller policy _

/-- The caller's tag has no part in a decision but its own place in a block. -/
theorem exists_decide_ofStack? (e : Engine) (w : Stores) (t : Thread) (host : String) (port : Int)
    (stack : CallStack) : ∃ stack? : Option String, ∀ caller,
      (e.decide w t host port caller stack).1.decision = .ofStack? host port caller stack? := by
  have hd (caller : String) := e.decision_judge t host port caller (w.get e.store t).1 stack
  by_cases h : ((e.exemption.judge t stack.frames).exempt ||
      (w.get e.store t).1.all (·.isAllowed host)) = true
  · exact ⟨none, fun caller => (hd caller).trans (if_pos h)⟩
  · exact ⟨some (stack.snippet e.stackDepth), fun caller => (hd caller).trans (if_neg h)⟩

/-- What a host that is blocked reports beside its stack. -/
theorem decision_decide (e : Engine) (w : Stores) (t : Thread) (host : String) (port : Int)
    (caller : String) (stack : CallStack) :
    (e.decide w t host port caller stack).1.decision = .allow ∨
      ∃ snippet, (e.decide w t host port caller stack).1.decision =
        .block ⟨host, port, caller, snippet⟩ := by
  obtain ⟨stack?, hd⟩ := e.exists_decide_ofStack? w t host port stack
  cases stack? with
  | none => exact .inl (hd caller)
  | some snippet => exact .inr ⟨snippet, hd caller⟩

theorem isBlocked_decide {e : Engine} {w : Stores} {t : Thread} {policy : Policy}
    (hpolicy : (w.get e.store t).1 = some policy) {stack : CallStack}
    (hexempt : (e.exemption.judge t stack.frames).exempt = false) (host : String) (port : Int)
    (caller : String) :
    (e.decide w t host port caller stack).1.decision.isBlocked = !policy.isAllowed host := by
  have hd := e.decision_judge t host port caller (w.get e.store t).1 stack
  rw [hpolicy, hexempt, Bool.false_or, Option.all_some, ← hpolicy] at hd
  change (e.judge t stack (w.get e.store t).1 _).decision.isBlocked = _
  rw [hd]
  cases policy.isAllowed host with
  | true => rfl
  | false => rfl

/-- Without an active policy a host passes. -/
theorem decision_decide_of_none {e : Engine} {w : Stores} {t : Thread}
    (h : (w.get e.store t).1 = none) (host : String) (port : Int) (caller : String)
    (stack : CallStack) : (e.decide w t host port caller stack).1.decision = .allow := by
  change (e.judge t stack (w.get e.store t).1 _).decision = .allow
  rw [h]
  rfl

/-! ## Connections -/

theorem decision_decideConnection_of_none {e : Engine} {w : Stores} {t : Thread}
    (h : (w.get e.store t).1 = none) (address : Address) (hostnames : List String) (port : UInt16)
    (caller : String) (stack : CallStack) :
    (e.decideConnection w t address hostnames port caller stack).1.decision = .allow := by
  change (e.judge t stack (w.get e.store t).1 _).decision = .allow
  rw [h]
  rfl

theorem namesFor_filter (address : String) (hostnames : List String) :
    namesFor address (hostnames.filter (· ≠ "")) = namesFor address hostnames := by
  rw [namesFor, namesFor, List.filter_filter]
  exact List.filter_congr fun name _ => by rw [Bool.and_right_comm, Bool.and_self]

theorem judgeAddress_filter (e : Engine) (address : String) (hostnames : List String)
    (port : UInt16) (caller : String) :
    e.judgeAddress address (hostnames.filter (· ≠ "")) port caller =
      e.judgeAddress address hostnames port caller := by
  funext policy stack
  rw [judgeAddress, judgeAddress, namesFor_filter]

/-- Empty names do not matter to a connection. -/
theorem decideConnection_filter (e : Engine) (stores : Stores) (t : Thread) (address : Address)
    (names : List String) (port : UInt16) (caller : String) (stack : CallStack) :
    e.decideConnection stores t address (names.filter (· ≠ "")) port caller stack =
      e.decideConnection stores t address names port caller stack := by
  rw [decideConnection, decideConnection, judgeAddress_filter]

/-- The name that a block on a connection is reported under: one that is blocked itself, else the
first one, else the address. -/
def reported (policy? : Option Policy) (address : String) (names : List String) : String :=
  ((names.find? fun name => policy?.any (·.isExplicitlyBlocked name)).or names.head?).getD address

/-- Whether a policy lets a destination with these names pass. -/
def admits (policy : Policy) (names : List String) : Bool :=
  names.all (!policy.isExplicitlyBlocked ·) && names.any policy.isListedAsAllowed

/-- Only the pattern that matches everything matches the empty host. -/
theorem any_isMatch_of_empty {ps : List Pattern} (h : ps.any (·.isMatch "") = true)
    (host : String) : ps.any (·.isMatch host) = true := by
  obtain ⟨p, hp, hmatch⟩ := List.any_eq_true.mp h
  have hall : p.isMatchAll = true := by simpa [Pattern.isMatch] using hmatch
  exact List.any_eq_true.mpr ⟨p, hp, by rw [Pattern.isMatch, hall, Bool.true_or]⟩

theorem isExplicitlyBlocked_of_empty {policy : Policy}
    (h : policy.isExplicitlyBlocked "" = true) (host : String) :
    policy.isExplicitlyBlocked host = true :=
  any_isMatch_of_empty h host

theorem isListedAsAllowed_of_empty {policy : Policy}
    (h : policy.isListedAsAllowed "" = true) (host : String) :
    policy.isListedAsAllowed host = true :=
  any_isMatch_of_empty h host

/-- An allowed name among the names of a connection leaves only the others to be blocked. -/
theorem admits_eq_false_iff {policy : Policy} {host address : String} {names : List String}
    (hallowed : policy.isAllowed host = true) (hhost : host ≠ "")
    (haddress : host ≠ address) (hmem : host ∈ names)
    (hother : ∀ name ∈ names, name = host ∨ eqIgnoreAsciiCase name host = false) :
    admits policy (address :: namesFor address names) = false ↔
      policy.isExplicitlyBlocked address = true ∨ ∃ name ∈ names,
        eqIgnoreAsciiCase name host = false ∧ policy.isExplicitlyBlocked name = true := by
  obtain ⟨hunblocked, hlisted⟩ : policy.isExplicitlyBlocked host = false ∧
      policy.isListedAsAllowed host = true := by simpa [Policy.isAllowed] using hallowed
  have hany : (address :: namesFor address names).any policy.isListedAsAllowed = true :=
    List.any_eq_true.mpr ⟨host, List.mem_cons_of_mem _
      (List.mem_filter.mpr ⟨hmem, by simp [hhost, haddress]⟩), hlisted⟩
  rw [admits, hany, Bool.and_true, List.all_eq_false]
  constructor
  · rintro ⟨name, hname, hblocked⟩
    have hblocked : policy.isExplicitlyBlocked name = true := by simpa using hblocked
    rcases List.mem_cons.mp hname with rfl | hname
    · exact .inl hblocked
    · have hname := (List.mem_filter.mp hname).1
      rcases hother name hname with rfl | hother
      · rw [hunblocked] at hblocked
        contradiction
      · exact .inr ⟨name, hname, hother, hblocked⟩
  · rintro (hblocked | ⟨name, hname, hother, hblocked⟩)
    · exact ⟨address, List.mem_cons_self, by simp [hblocked]⟩
    · have hempty : name ≠ "" := by
        rintro rfl
        rw [isExplicitlyBlocked_of_empty hblocked] at hunblocked
        contradiction
      by_cases heq : name = address
      · exact ⟨address, List.mem_cons_self, by simp [← heq, hblocked]⟩
      · exact ⟨name, List.mem_cons_of_mem _ (List.mem_filter.mpr ⟨hname, by simp [hempty, heq]⟩),
          by simp [hblocked]⟩

theorem decision_judgeAddress_eq (e : Engine) (address : String) (hostnames : List String)
    (port : UInt16) (caller : String) (policy : Policy) (stack : CallStack) :
    (e.judgeAddress address hostnames port caller policy stack).decision =
      if admits policy (address :: namesFor address hostnames) then .allow
      else .block ⟨reported (some policy) address (namesFor address hostnames), port.toNat, caller,
        stack.snippet e.stackDepth⟩ := by
  rw [judgeAddress, reported, admits]
  generalize namesFor address hostnames = names
  dsimp only [Option.any_some]
  cases hfind : names.find? policy.isExplicitlyBlocked with
  | some name =>
    have hname : names.all (!policy.isExplicitlyBlocked ·) = false := by
      rw [← List.not_any_eq_all_not, Bool.not_eq_false', List.any_eq_true]
      exact ⟨name, List.mem_of_find?_eq_some hfind, List.find?_some hfind⟩
    rw [List.all_cons, hname, Bool.and_false, Bool.false_and]
    rfl
  | none =>
    have hnames : names.all (!policy.isExplicitlyBlocked ·) = true :=
      List.all_eq_true.mpr fun name hname => by
        simpa using List.find?_eq_none.mp hfind name hname
    rw [List.all_cons, hnames, Bool.and_true, List.any_cons, Option.none_or]
    cases policy.isExplicitlyBlocked address with
    | true => rfl
    | false =>
      cases policy.isListedAsAllowed address || names.any policy.isListedAsAllowed with
      | true => rfl
      | false => rfl

theorem isBlocked_decideConnection {e : Engine} {w : Stores} {t : Thread} {policy : Policy}
    (hpolicy : (w.get e.store t).1 = some policy) {stack : CallStack}
    (hexempt : (e.exemption.judge t stack.frames).exempt = false) (address : Address)
    (hostnames : List String) (port : UInt16) (caller : String) :
    (e.decideConnection w t address hostnames port caller stack).1.decision.isBlocked =
      !admits policy (address.text :: namesFor address.text hostnames) := by
  change (e.judge t stack (w.get e.store t).1 _).decision.isBlocked = _
  rw [hpolicy, judge, hexempt, if_neg Bool.false_ne_true, decision_judgeAddress_eq]
  cases admits policy (address.text :: namesFor address.text hostnames) with
  | true => rfl
  | false => rfl

/-- What a block on a connection says. -/
theorem decision_decideConnection_eq (e : Engine) (w : Stores) (t : Thread) (address : Address)
    (hostnames : List String) (port : UInt16) (caller : String) (stack : CallStack) :
    (e.decideConnection w t address hostnames port caller stack).1.decision = .allow ∨
      ∃ snippet, (e.decideConnection w t address hostnames port caller stack).1.decision =
        .block ⟨reported (w.get e.store t).1 address.text (namesFor address.text hostnames),
          port.toNat, caller, snippet⟩ := by
  change (e.judge t stack (w.get e.store t).1 _).decision = .allow ∨ ∃ snippet,
    (e.judge t stack (w.get e.store t).1 _).decision = .block ⟨_, _, _, snippet⟩
  cases (w.get e.store t).1 with
  | none => exact .inl rfl
  | some policy =>
    rw [judge]
    split
    · exact .inl rfl
    · rw [decision_judgeAddress_eq]
      split
      · exact .inl rfl
      · exact .inr ⟨_, rfl⟩

theorem decision_decideConnection (e : Engine) (w : Stores) (t : Thread) (address : Address)
    (hostnames : List String) (port : UInt16) (caller : String) (stack : CallStack) :
    (e.decideConnection w t address hostnames port caller stack).1.decision = .allow ∨
      ∃ name snippet, (e.decideConnection w t address hostnames port caller stack).1.decision =
        .block ⟨name, port.toNat, caller, snippet⟩ :=
  (e.decision_decideConnection_eq w t address hostnames port caller stack).imp_right fun h => ⟨_, h⟩

/-! ## Outcomes -/

theorem faithful_blocked (e : Engine) (stack : CallStack) (host : String) (port : Int)
    (caller : String) (policy : Policy) :
    (e.blocked stack host port caller).Faithful (some policy) :=
  ⟨iff_of_true rfl rfl, iff_of_false nofun nofun⟩

theorem faithful_allowed (stack : CallStack) (policy : Policy) :
    Judgement.Faithful (some policy) ⟨.allow, .allowed, stack⟩ :=
  ⟨iff_of_false nofun nofun, iff_of_false nofun nofun⟩

theorem faithful_judgeHost (e : Engine) (host : String) (port : Int) (caller : String)
    (policy : Policy) (stack : CallStack) :
    (e.judgeHost host port caller policy stack).Faithful (some policy) := by
  rw [judgeHost]
  split
  · exact e.faithful_blocked ..
  · split
    · exact faithful_allowed ..
    · exact e.faithful_blocked ..

theorem faithful_judgeAddress (e : Engine) (address : String) (hostnames : List String)
    (port : UInt16) (caller : String) (policy : Policy) (stack : CallStack) :
    (e.judgeAddress address hostnames port caller policy stack).Faithful (some policy) := by
  rw [judgeAddress]
  dsimp only
  split
  · exact e.faithful_blocked ..
  · split
    · exact e.faithful_blocked ..
    · split
      · exact faithful_allowed ..
      · exact e.faithful_blocked ..

theorem faithful_judge (e : Engine) (t : Thread) (stack : CallStack) (policy? : Option Policy)
    {decide : Policy → CallStack → Judgement}
    (h : ∀ policy stack, (decide policy stack).Faithful (some policy)) :
    (e.judge t stack policy? decide).Faithful policy? := by
  cases policy? with
  | none => exact ⟨iff_of_false nofun nofun, iff_of_true rfl rfl⟩
  | some policy =>
    rw [judge]
    split
    · exact ⟨iff_of_false nofun nofun, iff_of_false nofun nofun⟩
    · exact h policy _

theorem faithful_decide (e : Engine) (w : Stores) (t : Thread) (host : String) (port : Int)
    (caller : String) (stack : CallStack) :
    (e.decide w t host port caller stack).1.Faithful (w.get e.store t).1 :=
  e.faithful_judge t stack _ (e.faithful_judgeHost host port caller)

theorem faithful_decideConnection (e : Engine) (w : Stores) (t : Thread) (address : Address)
    (hostnames : List String) (port : UInt16) (caller : String) (stack : CallStack) :
    (e.decideConnection w t address hostnames port caller stack).1.Faithful
      (w.get e.store t).1 :=
  e.faithful_judge t stack _ (e.faithful_judgeAddress address.text hostnames port caller)

end Engine
end Cordon
