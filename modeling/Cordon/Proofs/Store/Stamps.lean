import Cordon.Proofs.Store.Interleaving
import Cordon.Proofs.Store.Freshness
/-!
What the log of overlapping calls says about a policy: how often the store had been cleared when the
call started that set it, and whether it has been cleared since.
-/
namespace Cordon.Interleaving

open Stores

variable {log recent older during before : List Event} {event : Event} {s s' : StoreId} {t : Thread}
  {p q : Policy} {request : Request}

@[simp] theorem clears_append : clears s (recent ++ older) = clears s recent + clears s older :=
  List.countP_append

theorem clears_cons : clears s (event :: log) = clears s log + if event.endsClear s then 1 else 0 :=
  List.countP_cons

theorem clears_starts : clears s (.starts t s' request :: log) = clears s log := by
  simp [clears_cons, Event.endsClear]

theorem clears_eq_zero (h : clears s log = 0) (t : Thread) (r : Option Policy) :
    .ends t s .clear r ∉ log := fun hmem => by
  have := List.countP_eq_zero.mp h _ hmem
  simp [Event.endsClear] at this

/-- Whether an event is the end of a call that writes the store. -/
def Event.endsWrite (s : StoreId) : Event → Bool
  | ends _ s' request _ => s' = s && request.isWrite
  | _ => false

theorem Event.endsClear_of_endsWrite (h : event.endsWrite s = false) :
    event.endsClear s = false := by
  cases event with
  | starts => rfl
  | ends t s' request result =>
    cases request with
    | clear => simpa [endsClear, endsWrite, Request.isWrite] using h
    | _ => rfl

/-- The log as it was when the latest call of a thread started. -/
def since (u : ThreadId) : List Event → List Event
  | [] => []
  | .starts t _ _ :: older => if t.id = u then older else since u older
  | .ends .. :: older => since u older

theorem since_during (h : ∀ t' s' request', .starts t' s' request' ∈ during → t'.id ≠ t.id) :
    since t.id (during ++ .starts t s request :: before) = before := by
  induction during with
  | nil => exact if_pos rfl
  | cons event during ih =>
    have ih := ih fun t' s' request' hmem => h t' s' request' (List.mem_cons_of_mem _ hmem)
    cases event with
    | starts t' s' request' =>
      exact (if_neg (h t' s' request' List.mem_cons_self)).trans ih
    | ends => exact ih

/-- `p` is what a call that has started makes of the policy that it is given to set. -/
def Stamped (s : StoreId) (p : Policy) (log : List Event) : Prop :=
  ∃ recent t q older, log = recent ++ .starts t s (.set q) :: older ∧ p = stamp s older q

/-- No clearing has ended since that call started. -/
def Fresh (s : StoreId) (p : Policy) (log : List Event) : Prop :=
  ∃ recent t q older, log = recent ++ .starts t s (.set q) :: older ∧ p = stamp s older q ∧
    clears s recent = 0

/-- What a call makes of the policy `q` that it is given to set, and gives back. -/
def Sets (s : StoreId) (q : Policy) (result : Option Policy) (log : List Event) : Prop :=
  ∃ p, result = some p ∧ Fresh s p log ∧ p = { q with generation := p.generation }

/-- A call that set the store ended right before `recent`, and no call that clears the store has
started since. -/
def Active (s : StoreId) (recent log : List Event) : Prop :=
  (∃ t q result older, log = recent ++ .ends t s (.set q) result :: older) ∧
    ∀ t, .starts t s .clear ∉ recent

theorem Stamped.append (h : Stamped s p older) (recent : List Event) :
    Stamped s p (recent ++ older) := by
  obtain ⟨between, t, q, older, rfl, rfl⟩ := h
  exact ⟨recent ++ between, t, q, older, (List.append_assoc ..).symm, rfl⟩

theorem Stamped.cons (event : Event) (h : Stamped s p log) : Stamped s p (event :: log) :=
  h.append [event]

theorem Fresh.stamped (h : Fresh s p log) : Stamped s p log := by
  obtain ⟨recent, t, q, older, hlog, hp, -⟩ := h
  exact ⟨recent, t, q, older, hlog, hp⟩

theorem Fresh.append (h : Fresh s p older) (hrecent : clears s recent = 0) :
    Fresh s p (recent ++ older) := by
  obtain ⟨between, t, q, older, rfl, rfl, hbetween⟩ := h
  refine ⟨recent ++ between, t, q, older, (List.append_assoc ..).symm, rfl, ?_⟩
  rw [clears_append, hrecent, hbetween]

theorem Fresh.cons (h : Fresh s p log) (hevent : event.endsClear s = false) :
    Fresh s p (event :: log) := by
  have hrecent : clears s [event] = 0 := by simp [clears, hevent]
  exact h.append hrecent

theorem Sets.fresh (h : Sets s q (some p) log) : Fresh s p log := by
  obtain ⟨_, hp, hfresh, -⟩ := h
  cases hp
  exact hfresh

theorem Sets.cons {result : Option Policy} (h : Sets s q result log)
    (hevent : event.endsClear s = false) : Sets s q result (event :: log) := by
  obtain ⟨p, hp, hfresh, hq⟩ := h
  exact ⟨p, hp, hfresh.cons hevent, hq⟩

/-- A policy that is being set is stamped by a call that has just started. -/
theorem fresh_starts : Fresh s (stamp s log q) (.starts t s (.set q) :: log) :=
  ⟨[], t, q, log, rfl, rfl, rfl⟩

/-- While there is a clearing between any two calls that set the store, no two fresh policies
differ. -/
theorem Fresh.unique (hp : Fresh s p log) (hq : Fresh s q log) (spaced : Spaced s log) : p = q := by
  have apart {recent recent' older older' : List Event} {t t' : Thread} {p' q' : Policy}
      (hlog : log = recent ++ .starts t s (.set p') :: older)
      (hlog' : log = recent' ++ .starts t' s (.set q') :: older')
      (hclears : clears s recent' = 0) (between : List Event)
      (hrecent : recent' = recent ++ between) : between = [] := by
    subst hrecent
    cases between with
    | nil => rfl
    | cons event between =>
      have htail := hlog.symm.trans (hlog'.trans (List.append_assoc ..))
      obtain ⟨rfl, rfl⟩ := List.cons.inj (List.append_cancel_left htail)
      obtain ⟨u, r, hmem⟩ := spaced recent t p' between t' q' older' hlog
      have hmem' := List.mem_append_right recent (List.mem_cons_of_mem (.starts t s (.set p')) hmem)
      exact absurd hmem' (clears_eq_zero hclears u r)
  obtain ⟨recent, t, p', older, hlog, rfl, hclears⟩ := hp
  obtain ⟨recent', t', q', older', hlog', rfl, hclears'⟩ := hq
  have heq := hlog.symm.trans hlog'
  -- the two calls are the same, whichever of them is taken to have started last
  obtain ⟨between, hrecent, htail⟩ | ⟨between, hrecent, htail⟩ := List.append_eq_append_iff.mp heq
  · obtain rfl := apart hlog hlog' hclears' between hrecent
    obtain ⟨hstart, rfl⟩ := List.cons.inj htail
    cases hstart
    rfl
  · obtain rfl := apart hlog' hlog hclears between hrecent
    obtain ⟨hstart, rfl⟩ := List.cons.inj htail
    cases hstart
    rfl

theorem clears_since_le (u : ThreadId) : clears s (since u log) ≤ clears s log := by
  induction log with
  | nil => exact Nat.le_refl _
  | cons event log ih =>
    have hlog : clears s log ≤ clears s (event :: log) := by
      rw [clears_cons]
      exact Nat.le_add_right ..
    cases event with
    | starts t s' request =>
      rw [since]
      split
      · exact hlog
      · exact Nat.le_trans ih hlog
    | ends => exact Nat.le_trans ih hlog

/-- A stamp that was current at some time is of a call that started after the clearings of that time.
The bound is there because the generation wraps around. -/
theorem Stamped.since (h : Stamped s p log) (few : clears s log < UInt64.size)
    (hbefore : clears s before ≤ clears s log)
    (hgen : p.generation = UInt64.ofNat (clears s before)) :
    ∃ recent t q older, log = recent ++ .starts t s (.set q) :: older ∧ p = stamp s older q ∧
      clears s older = clears s before := by
  obtain ⟨recent, t, q, older, rfl, rfl⟩ := h
  have hsum : clears s (recent ++ .starts t s (.set q) :: older) =
      clears s recent + clears s older := by
    rw [clears_append, clears_starts]
  exact ⟨recent, t, q, older, rfl, rfl, ofNat_inj (by omega) (by omega) hgen⟩

/-- A stamp that is still current is not older than the latest clearing. -/
theorem Stamped.fresh (h : Stamped s p log) (few : clears s log < UInt64.size)
    (hgen : p.generation = UInt64.ofNat (clears s log)) : Fresh s p log := by
  obtain ⟨recent, t, q, older, hlog, hp, holder⟩ := h.since few (Nat.le_refl _) hgen
  refine ⟨recent, t, q, older, hlog, hp, ?_⟩
  rw [hlog, clears_append, clears_starts] at holder
  omega

theorem Active.inv (h : Active s recent (event :: log)) :
    recent = [] ∧ (∃ t q result, event = .ends t s (.set q) result) ∨
    ∃ recent', recent = event :: recent' ∧ Active s recent' log ∧
      ∀ t, event ≠ .starts t s .clear := by
  obtain ⟨⟨t, q, result, older, heq⟩, hclear⟩ := h
  cases recent with
  | nil =>
    exact .inl ⟨rfl, t, q, result, (List.cons.inj heq).1⟩
  | cons first recent =>
    obtain ⟨rfl, rfl⟩ := List.cons.inj heq
    refine .inr ⟨recent, rfl, ⟨⟨t, q, result, older, rfl⟩, ?_⟩, ?_⟩
    · exact fun t' hmem => hclear t' (List.mem_cons_of_mem _ hmem)
    · exact fun t' hevent => hclear t' (hevent ▸ List.mem_cons_self)

end Cordon.Interleaving
