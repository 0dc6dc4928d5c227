import Cordon.Check
import Cordon.Proofs.Engine.Exemption
import Cordon.Proofs.Engine.Judgement
import Cordon.Proofs.Lifecycle.Verdict
import Cordon.Proofs.Settings.Validity
import Cordon.Proofs.Store.Reads
import Mathlib.Data.List.TakeWhile
/-!
What the check of destinations reports, said by the settings and each argument alone. No decision
changes what the next one is taken by, since the thread of the check is served its own policy
throughout.
-/
namespace Cordon.Check

variable {settings : Settings} {frames arguments : List String} {policy : Policy} {engine : Engine}
  {t : Thread} {w : World Unit}

/-! ## Arguments -/

/-- The line for an argument that names a destination. -/
def answer (decide : Destination → Decision) (argument : String) : Option Line :=
  match Destination.read argument with
  | .ok d => some (.verdict argument d (decide d))
  | .error _ => none

/-- The report on arguments if each destination is decided on by itself. -/
def reportOn (decide : Destination → Decision) : List String → Report
  | [] => ⟨[], none⟩
  | argument :: rest =>
    match Destination.read argument with
    | .error fault => ⟨[], some (.port argument fault)⟩
    | .ok d =>
      let report := reportOn decide rest
      { report with lines := .verdict argument d (decide d) :: report.lines }

section Report

variable (decide : Destination → Decision)

end Report

/-- The thread is served the policy, and reading it changes nothing. -/
def Serves (w : World Unit) (s : StoreId) (t : Thread) (policy : Policy) : Prop :=
  w.stores.get s t = (some policy, w.stores)

/-- The decision on a destination under a policy, without an exemption. -/
def decideBy (policy : Policy) (depth : Nat) (frames : List String) (d : Destination) : Decision :=
  if policy.isAllowed d.host then .allow
  else .block ⟨d.host, d.port, caller, (CallStack.uncaptured frames).snippet depth⟩

theorem decide_eq (hserves : Serves w engine.store t policy)
    (hexempt : (engine.exemption.judge t w.frames).exempt = false) (d : Destination) :
    (w.decide engine t d.host d.port caller w.callStack).1.decision =
      decideBy policy engine.stackDepth w.frames d := by
  have hd := engine.decision_judge t d.host d.port caller (w.stores.get engine.store t).1
    w.callStack
  change (engine.judge t w.callStack (w.stores.get engine.store t).1 _).decision = _
  rw [hd, hserves, Option.all_some]
  change (if ((engine.exemption.judge t w.frames).exempt || _) = true then _ else _) = _
  rw [hexempt, Bool.false_or]
  rfl

/-- A decision leaves the next one as it would have been. -/
theorem Serves.decide (hserves : Serves w engine.store t policy) (host : String) (port : Int)
    (stack : CallStack) : Serves (w.decide engine t host port caller stack).2 engine.store t policy := by
  have hstores : (w.decide engine t host port caller stack).2.stores = w.stores :=
    congrArg Prod.snd hserves
  rw [Serves, hstores]
  exact hserves

/-- Whether the defaults of the settings block a host by themselves. -/
def blocks (defaults : Defaults) (host : String) : Bool :=
  defaults.blockedHosts.any (Pattern.isMatchText · host) ||
    !defaults.allowedHosts.any (Pattern.isMatchText · host)

/-- The decision on a destination that the settings stand for. -/
def verdict (settings : Settings) (frames : List String) (d : Destination) : Decision :=
  if blocks settings.defaults d.host then
    .block ⟨d.host, d.port, caller,
      (CallStack.uncaptured frames).snippet (max 1 settings.engine.stackSnippetDepth)⟩
  else .allow

/-- Settings that were loaded let the check begin. -/
theorem run_eq (hne : arguments ≠ []) (hversion : "--version" ∉ arguments) {env : Environment}
    {files : Files} {grammar : LogFilter.Grammar} (hload : Settings.load env files = .ok settings)
    (hlog : LogFilter.install grammar env settings.logging = .ok ()) :
    run grammar arguments env files frames = decideUnder settings arguments frames := by
  rw [run, if_neg (by simpa using hversion), if_neg (by simpa using hne), hload]
  dsimp only
  rw [hlog]

end Cordon.Check
