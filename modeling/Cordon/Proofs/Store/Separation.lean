import Cordon.Proofs.Store.Freshness
import Cordon.Proofs.Store.Log
import Cordon.Proofs.Store.Reads
/-!
Stores do not show to each other, and reads show to nobody: a log that is thinned to one store is
the log of a run again. Both runs keep the same sight of the store. What differs between them is
kept out of sight, the slots that are stale and those of other stores, and it stays there because no
slot becomes current again.
-/
namespace Cordon.Stores

variable {past past' : List Op} {x y : Held} {s : StoreId} {log rest : List Entry} {op : Op}

/-! ## What the traces of a run keep out of sight -/

namespace Traced

/-- No slot was filled for a generation that is still to come. -/
theorem generation_ne_next (H : Traced past x) (few : clears s past + 1 < UInt64.size)
    (t : ThreadId) (p : Policy) (h : (s, p) ∈ x.stores.slots t) :
    p.generation ≠ x.stores.generation s + 1 := by
  intro hgen
  obtain ⟨recent, t', q, older, rfl, rfl⟩ := H.slot t s p h
  have hsum : clears s (recent ++ Op.set s t' q :: older) = clears s recent + clears s older :=
    clears_around_set
  have hnext : UInt64.ofNat (clears s older) = UInt64.ofNat
      (clears s (recent ++ Op.set s t' q :: older) + 1) := by
    rw [UInt64.ofNat_add, ← H.generation]
    exact hgen
  have := ofNat_inj (by omega) few hnext
  omega

/-- There are no slots for a store that is still to be made. -/
theorem slot_not_mem (H : Traced past x) (hs : x.stores.next ≤ s) (t : ThreadId) (p : Policy) :
    (s, p) ∉ x.stores.slots t := by
  intro h
  obtain ⟨-, hclears, hlatest⟩ := H.unmade s hs
  obtain ⟨recent, t', q, older, rfl, -⟩ := H.slot t s p h
  rw [clears_around_set] at hclears
  have hset : SetSinceClear s q (recent ++ Op.set s t' q :: older) :=
    ⟨recent, t', older, rfl, clear_not_mem (by omega)⟩
  have := hset.latest_isSome
  rw [hlatest] at this
  contradiction

end Traced

/-! ## Mirrors -/

/-- In `y`, where the store `s` of `x` stands alone, it is seen as it is in `x`. -/
structure Mirrors (s : StoreId) (x y : Held) : Prop where
  unmade : x.stores.next ≤ s → y = {}
  live : y.stores.live 1 = x.stores.live s
  sight : x.stores.live s = true → y.stores.sight 1 = x.stores.sight s
  views : ∀ p, ⟨s, p⟩ ∈ x.snapshots → ⟨1, p⟩ ∈ y.snapshots

namespace Mirrors

theorem start (s : StoreId) : Mirrors s {} {} where
  unmade _ := rfl
  live := rfl
  sight h := absurd h Bool.false_ne_true
  views _ h := absurd h List.not_mem_nil

theorem get_eq (M : Mirrors s x y) (hs : x.stores.live s = true) (t : Thread) :
    (y.stores.get 1 t).1 = (x.stores.get s t).1 := by
  rw [get_fst, get_fst, M.sight hs]

theorem generation_eq (M : Mirrors s x y) (hs : x.stores.live s = true) :
    y.stores.generation 1 = x.stores.generation s :=
  congrArg (fun v => v.store.generation) (M.sight hs)

/-- A step of `x` alone that leaves the store in sight as it was. -/
theorem of_sight_eq (M : Mirrors s x y) {x' : Held} (hnext : x.stores.next ≤ x'.stores.next)
    (hlive : x'.stores.live s = x.stores.live s)
    (hsight : x.stores.live s = true → x'.stores.sight s = x.stores.sight s)
    (hviews : ∀ p, ⟨s, p⟩ ∈ x'.snapshots → ⟨s, p⟩ ∈ x.snapshots) : Mirrors s x' y where
  unmade h := M.unmade (Nat.le_trans hnext h)
  live := M.live.trans hlive.symm
  sight h := (M.sight (hlive ▸ h)).trans (hsight (hlive ▸ h)).symm
  views p h := M.views p (hviews p h)

/-- A read shows to nobody, whatever store it is of. -/
theorem read (M : Mirrors s x y) (tidy : x.stores.Tidy) (s' : StoreId) (t : Thread) :
    Mirrors s ((Op.get s' t).apply x) y :=
  M.of_sight_eq (by simp [Op.apply]) (by simp [Op.apply]) (fun _ => sight_get tidy ..) fun _ h => h

theorem foreign (M : Mirrors s x y) (tidy : x.stores.Tidy) (hop : op.store? ≠ some s)
    (hnew : ∀ harness, op = .create harness → s ≠ x.stores.next) : Mirrors s (op.apply x) y := by
  cases op with
  | create harness =>
    have hnew := hnew harness rfl
    refine M.of_sight_eq (Nat.le_succ _) ?_ (fun _ => sight_create_of_ne hnew _) fun _ h => h
    simp [Op.apply, create, hnew]
  | set s' t p =>
    have hs : s ≠ s' := fun h => hop (congrArg some h.symm)
    refine M.of_sight_eq (by simp [Op.apply]) (by simp [Op.apply]) (fun hlive => ?_) fun _ h => h
    exact (sight_set hlive s' t p).trans (if_neg hs)
  | clear s' t =>
    have hs : s ≠ s' := fun h => hop (congrArg some h.symm)
    exact M.of_sight_eq (Nat.le_refl _) rfl (fun _ => sight_clear_of_ne hs t) fun _ h => h
  | get s' t => exact M.read tidy s' t
  | snapshot s' t =>
    have hs : s ≠ s' := fun h => hop (congrArg some h.symm)
    have M := M.read tidy s' t
    refine M.of_sight_eq (Nat.le_refl _) rfl (fun _ => rfl) fun p h => ?_
    rcases List.mem_cons.mp h with h | h
    · exact absurd (Snapshot.mk.inj h).1 hs
    · exact h
  | attach snap t =>
    have hs : s ≠ snap.store := fun h => hop (congrArg some h.symm)
    refine M.of_sight_eq (by simp [Op.apply]) (by simp [Op.apply]) (fun hlive => ?_) fun _ h => h
    exact (sight_attach snap hlive t).trans (if_neg hs)
  | inherit s' t child =>
    have hs : s ≠ s' := fun h => hop (congrArg some h.symm)
    have M := M.read tidy s' t
    refine M.of_sight_eq (by simp [Op.apply, Stores.snapshot])
      (by simp [Op.apply, Stores.snapshot]) (fun hlive => ?_) fun p h => ?_
    · exact (sight_attach _ hlive child).trans (if_neg hs)
    · rcases List.mem_cons.mp h with h | h
      · exact absurd (Snapshot.mk.inj h).1 hs
      · exact h
  | drop s' t =>
    have hs : s ≠ s' := fun h => hop (congrArg some h.symm)
    refine M.of_sight_eq (Nat.le_refl _) ?_ (fun _ => sight_drop_of_ne hs t) fun _ h => h
    simp [Op.apply, drop, removeSlot, hs]

/-! ## Steps of both -/

/-- What stands for a store once it is made. -/
theorem of_lt {x' y' : Held} (hs : s < x'.stores.next)
    (hlive : y'.stores.live 1 = x'.stores.live s)
    (hsight : x'.stores.live s = true → y'.stores.sight 1 = x'.stores.sight s)
    (hviews : ∀ p, ⟨s, p⟩ ∈ x'.snapshots → ⟨1, p⟩ ∈ y'.snapshots) : Mirrors s x' y' where
  unmade h := absurd hs (Nat.not_lt.mpr h)
  live := hlive
  sight := hsight
  views := hviews

theorem create (M : Mirrors x.stores.next x y) (H : Traced past x) (harness : Classifier) :
    Mirrors x.stores.next ((Op.create harness).apply x) ((Op.create harness).apply y) := by
  obtain rfl := M.unmade (Nat.le_refl _)
  refine .of_lt (Nat.lt_succ_self _) ?_ (fun _ => ?_) M.views
  · simp [Op.apply, Stores.create]
  · exact (sight_create (fun _ _ => List.not_mem_nil) harness).trans
      (sight_create (H.slot_not_mem (Nat.le_refl _)) harness).symm

theorem set (M : Mirrors s x y) (H : Traced past x) (hs : x.stores.live s = true) (t : Thread)
    (p : Policy) : Mirrors s ((Op.set s t p).apply x) ((Op.set 1 t p).apply y) := by
  refine .of_lt (by simpa [Op.apply] using H.lt_next hs) (by simpa [Op.apply] using M.live)
    (fun _ => ?_) M.views
  simp only [Op.apply]
  rw [sight_set hs, sight_set (M.live.trans hs), if_pos rfl, if_pos rfl, M.sight hs]

theorem clear (M : Mirrors s x y) (H : Traced past x) (H' : Traced past' y)
    (hs : x.stores.live s = true) (few : clears s past + 1 < UInt64.size)
    (few' : clears 1 past' + 1 < UInt64.size) (t : Thread) :
    Mirrors s ((Op.clear s t).apply x) ((Op.clear 1 t).apply y) := by
  refine .of_lt (H.lt_next hs) M.live (fun _ => ?_) M.views
  simp only [Op.apply]
  rw [sight_clear (H.generation_ne_next few), sight_clear (H'.generation_ne_next few'), M.sight hs]

theorem get (M : Mirrors s x y) (H : Traced past x) (tidy : x.stores.Tidy) (tidy' : y.stores.Tidy)
    (hs : x.stores.live s = true) (t : Thread) :
    Mirrors s ((Op.get s t).apply x) ((Op.get 1 t).apply y) := by
  refine .of_lt (by simpa [Op.apply] using H.lt_next hs) (by simpa [Op.apply] using M.live)
    (fun _ => ?_) M.views
  simp only [Op.apply]
  rw [sight_get tidy, sight_get tidy', M.sight hs]

theorem snapshot (M : Mirrors s x y) (H : Traced past x) (tidy : x.stores.Tidy)
    (tidy' : y.stores.Tidy) (hs : x.stores.live s = true) (t : Thread) :
    Mirrors s ((Op.snapshot s t).apply x) ((Op.snapshot 1 t).apply y) := by
  have M' := M.get H tidy tidy' hs t
  refine .of_lt (by simpa [Op.apply, Stores.snapshot] using H.lt_next hs) M'.live M'.sight
    fun p h => ?_
  rcases List.mem_cons.mp h with h | h
  · obtain ⟨-, hp⟩ := Snapshot.mk.inj h
    exact List.mem_cons.mpr (.inl (congrArg (Snapshot.mk 1) (hp.trans (M.get_eq hs t).symm)))
  · exact List.mem_cons_of_mem _ (M.views p h)

/-- A view that was taken is put back on both sides, also when the store is gone. -/
theorem attach (M : Mirrors s x y) {p : Option Policy} (hs : s < x.stores.next) (t : Thread) :
    Mirrors s ((Op.attach ⟨s, p⟩ t).apply x) ((Op.attach ⟨1, p⟩ t).apply y) := by
  refine .of_lt (by simpa [Op.apply] using hs) (by simpa [Op.apply] using M.live)
    (fun hlive => ?_) M.views
  have hlive : x.stores.live s = true := by simpa [Op.apply] using hlive
  simp only [Op.apply]
  rw [sight_attach _ hlive, sight_attach _ (M.live.trans hlive), if_pos rfl, if_pos rfl,
    M.sight hlive]

theorem inherit (M : Mirrors s x y) (H : Traced past x) (tidy : x.stores.Tidy)
    (tidy' : y.stores.Tidy) (hs : x.stores.live s = true) (t child : Thread) :
    Mirrors s ((Op.inherit s t child).apply x) ((Op.inherit 1 t child).apply y) := by
  have M' := M.snapshot H tidy tidy' hs t
  have hnext : s < ((Op.snapshot s t).apply x).stores.next := by
    simpa [Op.apply, Stores.snapshot] using H.lt_next hs
  have hattach := M'.attach (p := (x.stores.get s t).1) hnext child
  rwa [show (Op.inherit 1 t child).apply y =
    (Op.attach ⟨1, (x.stores.get s t).1⟩ child).apply ((Op.snapshot 1 t).apply y) by
      rw [← M.get_eq hs t]; rfl]

theorem drop (M : Mirrors s x y) (H : Traced past x) (hs : x.stores.live s = true) (t : Thread) :
    Mirrors s ((Op.drop s t).apply x) ((Op.drop 1 t).apply y) := by
  refine .of_lt (H.lt_next hs) ?_ (fun hlive => ?_) M.views
  · simp [Op.apply, Stores.drop, removeSlot]
  · simp [Op.apply, Stores.drop, removeSlot] at hlive

/-- A view of the store can only be there once the store is made. -/
theorem lt_next_of_view (M : Mirrors s x y) {p : Option Policy} (h : ⟨s, p⟩ ∈ x.snapshots) :
    s < x.stores.next := by
  refine Nat.lt_of_not_le fun hle => ?_
  have hview := M.views p h
  rw [M.unmade hle] at hview
  exact List.not_mem_nil hview

/-- What the process may do with the store, it may do with the store alone. -/
theorem possible (M : Mirrors s x y) (hs : op.store? = some s) (hop : op.Possible x) :
    op.alone.Possible y := by
  cases op with
  | create harness => trivial
  | attach snap t =>
    obtain ⟨s', p⟩ := snap
    obtain rfl := Option.some.inj hs
    exact M.views p hop
  | _ =>
    obtain rfl := Option.some.inj hs
    exact M.live.trans hop

theorem step (M : Mirrors s x y) (run : Run past x) (run' : Run past' y)
    (hs : op.store? = some s) (hop : op.Possible x) (few : clears s (op :: past) < UInt64.size)
    (few' : clears 1 (op.alone :: past') < UInt64.size) :
    Mirrors s (op.apply x) (op.alone.apply y) := by
  have H := run.traced
  cases op with
  | create harness => contradiction
  | set s' t p =>
    obtain rfl := Option.some.inj hs
    exact M.set H hop t p
  | clear s' t =>
    obtain rfl := Option.some.inj hs
    exact M.clear H run'.traced hop (by simpa [clears_cons, Op.isClear] using few)
      (by simpa [clears_cons, Op.isClear, Op.alone] using few') t
  | get s' t =>
    obtain rfl := Option.some.inj hs
    exact M.get H run.tidy run'.tidy hop t
  | snapshot s' t =>
    obtain rfl := Option.some.inj hs
    exact M.snapshot H run.tidy run'.tidy hop t
  | attach snap t =>
    obtain ⟨s', p⟩ := snap
    obtain rfl := Option.some.inj hs
    exact M.attach (M.lt_next_of_view hop) t
  | inherit s' t child =>
    obtain rfl := Option.some.inj hs
    exact M.inherit H run.tidy run'.tidy hop t child
  | drop s' t =>
    obtain rfl := Option.some.inj hs
    exact M.drop H hop t

theorem answer_eq (M : Mirrors s x y) {call : Call} (hs : call.store? = some s)
    (hcall : call.Possible x) : call.alone.answer y = (call.answer x).alone := by
  cases call with
  | isActive s' t =>
    obtain rfl := Option.some.inj hs
    exact congrArg (fun p => Answer.active p.isSome) (M.get_eq hcall t)
  | generation s' =>
    obtain rfl := Option.some.inj hs
    exact congrArg Answer.generation (M.generation_eq hcall)
  | op o =>
    cases o with
    | create harness => contradiction
    | set s' t p =>
      obtain rfl := Option.some.inj hs
      exact congrArg (fun n => Answer.policy (some { p with generation := n }))
        (M.generation_eq hcall)
    | get s' t =>
      obtain rfl := Option.some.inj hs
      exact congrArg Answer.policy (M.get_eq hcall t)
    | snapshot s' t =>
      obtain rfl := Option.some.inj hs
      exact congrArg (fun p => Answer.view ⟨1, p⟩) (M.get_eq hcall t)
    | _ => rfl

end Mirrors

/-! ## Logs -/

theorem Logged.run (H : Logged log x) : Run (opsOf log) x := by
  induction H with
  | start => exact .start
  | step _ call hcall ih =>
    cases call with
    | op o => exact ih.step o hcall
    | isActive s t => exact ih.step (.get s t) hcall
    | generation s => exact ih

/-- The calls alone tell the state and every answer. -/
theorem Logged.unique (H : Logged log x) (H' : Logged rest y)
    (hcalls : rest.map Prod.fst = log.map Prod.fst) : rest = log ∧ y = x := by
  induction H generalizing rest y with
  | start =>
    cases H' with
    | start => exact ⟨rfl, rfl⟩
    | step => contradiction
  | step _ call _ ih =>
    cases H' with
    | start => contradiction
    | step H' call' _ =>
      obtain ⟨hcall, hcalls⟩ := List.cons.inj hcalls
      obtain ⟨rfl, rfl⟩ := ih H' hcalls
      obtain rfl : call' = call := hcall
      exact ⟨rfl, rfl⟩

/-! ## Thinning -/

theorem clears_ops_eq_zero {call : Call} (h : ∀ t, call ≠ .op (.clear s t)) :
    clears s call.ops = 0 := by
  refine clears_eq_zero fun t hmem => ?_
  cases call with
  | op o => exact h t (congrArg Call.op (List.mem_singleton.mp hmem).symm)
  | isActive s' t' => simp [Call.ops] at hmem
  | generation s' => simp [Call.ops] at hmem

theorem clears_alone {call : Call} (hs : ∀ s', call.store? = some s' → s' = s) :
    clears 1 call.alone.ops = clears s call.ops := by
  cases call with
  | op o =>
    cases o with
    | clear s' t =>
      obtain rfl := hs s' rfl
      simp [Call.alone, Op.alone, Call.ops, clears, Op.isClear]
    | _ => simp [Call.alone, Op.alone, Call.ops, clears, Op.isClear]
  | _ => simp [Call.alone, Call.ops, clears, Op.isClear]

theorem clears_opsOf_cons (call : Call) (answer : Answer) (log : List Entry) :
    clears s (opsOf ((call, answer) :: log)) = clears s call.ops + clears s (opsOf log) := by
  rw [opsOf, List.flatMap_cons, clears_append, opsOf]

namespace Mirrors

theorem foreign_call (M : Mirrors s x y) (tidy : x.stores.Tidy) {call : Call}
    (hon : Entry.isOn s (call, call.answer x) = false) : Mirrors s (call.apply x) y := by
  cases call with
  | isActive s' t => exact M.read tidy s' t
  | generation s' => exact M
  | op o =>
    refine M.foreign tidy (fun hs => ?_) fun harness ho => ?_
    · cases o with
      | create harness => contradiction
      | _ => simp [Entry.isOn, Call.store?, hs] at hon
    · subst ho
      simpa [Entry.isOn, Call.answer, Stores.create, eq_comm] using hon

theorem read_call (M : Mirrors s x y) (tidy : x.stores.Tidy) {call : Call}
    (hread : call.isRead = true) : Mirrors s (call.apply x) y := by
  cases call with
  | isActive s' t => exact M.read tidy s' t
  | generation s' => exact M
  | op o =>
    cases o with
    | get s' t => exact M.read tidy s' t
    | _ => contradiction

end Mirrors

/-- How a call can be on a store: by its name, or by making it. -/
theorem isOn_cases {call : Call} (hon : Entry.isOn s (call, call.answer x) = true) :
    call.store? = some s ∨ ∃ harness, call = .op (.create harness) ∧ x.stores.next = s := by
  cases call with
  | op o =>
    cases o with
    | create harness =>
      exact .inr ⟨harness, rfl, by simpa [Entry.isOn, Call.answer, Stores.create] using hon⟩
    | _ => exact .inl (by simpa [Entry.isOn] using hon)
  | _ => exact .inl (by simpa [Entry.isOn] using hon)

namespace Mirrors

theorem keep_call (M : Mirrors s x y) (run : Run past x) (run' : Run past' y) {call : Call}
    (hcall : call.Possible x) (hs : call.store? = some s)
    (few : clears s call.ops + clears s past < UInt64.size)
    (few' : clears 1 call.alone.ops + clears 1 past' < UInt64.size) :
    call.alone.Possible y ∧ Mirrors s (call.apply x) (call.alone.apply y) := by
  cases call with
  | op o =>
    rw [← clears_append] at few few'
    exact ⟨M.possible hs hcall, M.step run run' hs hcall few few'⟩
  | isActive s' t =>
    obtain rfl := Option.some.inj hs
    exact ⟨M.live.trans hcall, M.get run.traced run.tidy run'.tidy hcall t⟩
  | generation s' =>
    obtain rfl := Option.some.inj hs
    exact ⟨M.live.trans hcall, M⟩

end Mirrors

/-- Whoever makes the calls that a thinned log keeps is told what the log says, by a process that
mirrors the one thinned. -/
theorem Thinned.mirrored (thin : Thinned s log rest) (H : Logged log x)
    (few : clears s (opsOf log) < UInt64.size) :
    ∃ y, Logged rest y ∧ Mirrors s x y ∧ clears 1 (opsOf rest) = clears s (opsOf log) := by
  -- the induction is on the thinning; a call that is left out is no clearing of the store, so that
  -- both runs agree on its generation
  induction thin generalizing x with
  | nil =>
    cases H with
    | start => exact ⟨{}, .start, .start s, rfl⟩
  | @foreign call answer log rest hon _ ih =>
    cases H with
    | @step _ x H _ hcall =>
      have hnone : clears s call.ops = 0 := clears_ops_eq_zero fun t ht => by
        simp [ht, Entry.isOn, Call.store?, Op.store?] at hon
      rw [clears_opsOf_cons, hnone, Nat.zero_add] at few ⊢
      obtain ⟨y, H', M, heq⟩ := ih H few
      exact ⟨y, H', M.foreign_call H.run.tidy hon, heq⟩
  | @read log rest call answer hread _ ih =>
    cases H with
    | @step _ x H _ hcall =>
      have hnone : clears s call.ops = 0 := clears_ops_eq_zero fun t ht => by
        simp [ht, Call.isRead] at hread
      rw [clears_opsOf_cons, hnone, Nat.zero_add] at few ⊢
      obtain ⟨y, H', M, heq⟩ := ih H few
      exact ⟨y, H', M.read_call H.run.tidy hread, heq⟩
  | @keep call answer log rest hon _ ih =>
    cases H with
    | @step _ x H _ hcall =>
      rw [clears_opsOf_cons] at few ⊢
      obtain ⟨y, H', M, heq⟩ := ih H (by omega)
      rw [clears_opsOf_cons]
      rcases isOn_cases hon with hs | ⟨harness, rfl, rfl⟩
      · have halone := clears_alone fun s' h => Option.some.inj (h.symm.trans hs)
        obtain ⟨hpossible, M'⟩ := M.keep_call H.run H'.run hcall hs few (by omega)
        refine ⟨_, ?_, M', by omega⟩
        rw [← M.answer_eq hs hcall]
        exact H'.step _ hpossible
      · -- the store is made by this call, so that nothing was made in the other run yet
        have hy := M.unmade (Nat.le_refl _)
        refine ⟨_, ?_, M.create H.run.traced harness, congrArg (0 + ·) heq⟩
        have hanswer : (Call.op (.create harness)).answer y = .made 1 := by rw [hy]; rfl
        have H' := H'.step (.op (.create harness)) trivial
        rwa [hanswer] at H'

/-- Stores do not interfere, nor do reads: leave out of a log every call on other stores, and any of
the plain reads, and what is left is what the same calls are answered in a process that makes no
others, for whatever threads they are made. -/
theorem logged_of_thinned (H : Logged log x) (few : clears s (opsOf log) < UInt64.size)
    (thin : Thinned s log rest) :
    (∃ y, Logged rest y) ∧
      ∀ rest' y, Logged rest' y → rest'.map Prod.fst = rest.map Prod.fst → rest' = rest := by
  obtain ⟨y, H', -, -⟩ := thin.mirrored H few
  exact ⟨⟨y, H'⟩, fun rest' y' H'' hcalls => (H'.unique H'' hcalls).1⟩

/-- A worker takes over a view of the second store after its test has ended. Neither what goes on in
the first store meanwhile nor a read that drops the worker's stale slot is missed. -/
theorem logged_of_thinned_stale_view :
    ∃ log rest x, (Logged log x ∧ clears 2 (opsOf log) < UInt64.size ∧ Thinned 2 log rest ∧
      log.length = 10 ∧ rest.length = 7 ∧ rest.head? =
        some (.op (.get 1 ⟨2, none⟩), .policy (some { Policy.blockAll with generation := 1 }))) ∧
      (∃ y, Logged rest y) ∧
      ∀ rest' y, Logged rest' y → rest'.map Prod.fst = rest.map Prod.fst → rest' = rest := by
  have H := (((((((((Logged.start.step (.op (.create .noHarness)) trivial).step
    (.op (.create .noHarness)) trivial).step
    (.op (.set 2 ⟨1, none⟩ .blockAll)) rfl).step
    (.op (.snapshot 2 ⟨1, none⟩)) rfl).step
    (.op (.clear 2 ⟨1, none⟩)) rfl).step
    (.op (.attach ⟨2, some .blockAll⟩ ⟨2, none⟩)) List.mem_cons_self).step
    (.op (.set 1 ⟨2, none⟩ .blockAll)) rfl).step
    (.isActive 2 ⟨2, none⟩) rfl).step
    (.op (.set 2 ⟨1, none⟩ .blockAll)) rfl).step
    (.op (.get 2 ⟨2, none⟩)) rfl
  have thinned : ∃ log rest x, Logged log x ∧ clears 2 (opsOf log) < UInt64.size ∧
      Thinned 2 log rest ∧ log.length = 10 ∧ rest.length = 7 ∧ rest.head? =
        some (.op (.get 1 ⟨2, none⟩), .policy (some { Policy.blockAll with generation := 1 })) :=
    ⟨_, _, _, H, by decide, .keep rfl <| .keep rfl <| .read rfl <| .foreign rfl <| .keep rfl <|
      .keep rfl <| .keep rfl <| .keep rfl <| .keep rfl <| .foreign rfl .nil, rfl, rfl, rfl⟩
  obtain ⟨log, rest, x, H, few, thin, hrest⟩ := thinned
  exact ⟨log, rest, x, ⟨H, few, thin, hrest⟩, logged_of_thinned H few thin⟩

end Cordon.Stores
