import Cordon.Proofs.Store.Stamps
/-!
What holds of a store in the middle of calls that overlap. A reader takes three looks, at the
generation, at its slot and at the fallback, and the store may change between any two of them. One
invariant has a line for everything that a reader may come across: a policy in a slot or in a snapshot
bears the number of clearings that had ended when the call started that set it, and the fallback was
set since the latest clearing. That is so because a call that sets the store fills the slot before the
fallback, and a clearing empties the fallback before the generation moves on.
-/
namespace Cordon.Interleaving

open Stores

variable {log recent before : List Event} {event : Event} {x y : Process} {w w' : Stores}
  {s s' : StoreId} {t : Thread} {u : ThreadId} {p q : Policy} {request : Request} {rest rest' : Rest}
  {result : Option Policy}

/-! ## Changes elsewhere -/

/-- A change of the stores that leaves alone what the threads share of `s`, and brings no slot of `s`
that is not of a call that set it. -/
structure Spares (s : StoreId) (log : List Event) (w w' : Stores) : Prop where
  store : w'.store s = w.store s
  next : w'.next ≤ s → w.next ≤ s
  live : w'.live s = true → w.live s = true
  slot : ∀ u p, (s, p) ∈ w'.slots u → (s, p) ∈ w.slots u ∨ Stamped s p log

theorem Spares.lt_next (h : Spares s log w w') (hs : s < w.next) : s < w'.next :=
  Nat.lt_of_not_le fun hle => absurd (h.next hle) (Nat.not_le.mpr hs)

theorem spares_refl : Spares s log w w :=
  ⟨rfl, id, id, fun _ _ h => .inl h⟩

theorem spares_filter (keep : Slot → Bool) :
    Spares s log w (w.setSlots u ((w.slots u).filter keep)) :=
  ⟨rfl, id, id, fun _ _ h => .inl (mem_slots_filter h)⟩

theorem spares_setStore (hs : s' ≠ s) (store : Store) : Spares s log w (w.setStore s' store) :=
  ⟨by simp [hs.symm], id, id, fun _ _ h => .inl h⟩

theorem spares_writeSlot (h : s' = s → Stamped s p log) :
    Spares s log w (w.writeSlot s' u p) := by
  refine ⟨by simp, by simp, by simp, fun u' p' hmem => ?_⟩
  rcases mem_slots_writeSlot hmem with ⟨-, hentry⟩ | hmem
  · obtain ⟨rfl, rfl⟩ := Prod.mk.inj hentry
    exact .inr (h rfl)
  · exact .inl hmem

theorem spares_attach {snap : Snapshot} (h : ∀ p, snap = ⟨s, some p⟩ → Stamped s p log) :
    Spares s log w (w.attach snap t) := by
  obtain ⟨s', policy?⟩ := snap
  cases policy? with
  | none => exact spares_refl
  | some p => exact spares_writeSlot fun hs => h p (hs ▸ rfl)

theorem spares_create (hs : s ≠ w.next) (harness : Classifier) :
    Spares s log w (w.create harness).2 := by
  refine ⟨by simp [create, setStore, hs], fun h => ?_, fun h => ?_, fun _ _ h => .inl h⟩
  · exact Nat.le_of_succ_le h
  · simpa [create, hs] using h

theorem spares_drop : Spares s log w (w.drop s' t) := by
  refine ⟨rfl, id, fun h => ?_, fun _ _ h => .inl (mem_slots_drop h)⟩
  exact (Bool.and_eq_true_iff.mp h).2

theorem spares_begin : Spares s log w (request.begin s' t w).2 := by
  cases request with
  | clear => exact spares_filter _
  | _ => exact spares_refl

/-- Whether a step is one of a call that writes. -/
def Rest.isWrite : Rest → Bool
  | fill _ | publish _ | empty | advance => true
  | look _ | classify | share => false

/-- A step of a call on another store, or of a read. -/
theorem spares_step {progress : Progress} (hstep : rest.step s' t w = (progress, w'))
    (h : s' = s → rest.isWrite = false) : Spares s log w w' := by
  have hw : Spares s log w (rest.step s' t w).2 := by
    cases rest with
    | fill p => exact spares_writeSlot fun hs => nomatch h hs
    | publish | empty | advance => exact spares_setStore (fun hs => nomatch h hs) _
    | look current =>
      rw [Rest.step]
      split
      · split
        · exact spares_refl
        · exact spares_filter _
      · exact spares_refl
    | classify =>
      rw [Rest.step]
      split
      · exact spares_refl
      · exact spares_refl
    | share => exact spares_refl
  rw [hstep] at hw
  exact hw

/-! ## The invariant -/

/-- What is known of a call on the store that has come as far as `rest`, if the log was `before` when
the call started. -/
inductive Fits (s : StoreId) (log before : List Event) (fallback : Option Policy) :
    Request → Rest → Prop
  | fill {p q : Policy} : Sets s q (some p) log → Fits s log before fallback (.set q) (.fill p)
  | publish {p q : Policy} : Sets s q (some p) log →
    Fits s log before fallback (.set q) (.publish p)
  | empty : (∀ recent, ¬ Active s recent log) → Fits s log before fallback .clear .empty
  | advance : (∀ recent, ¬ Active s recent log) → fallback = none →
    Fits s log before fallback .clear .advance
  | look {request : Request} : request.isWrite = false →
    Fits s log before fallback request (.look (UInt64.ofNat (clears s before)))
  | classify {request : Request} : request.isWrite = false →
    Fits s log before fallback request .classify
  | share {request : Request} : request.isWrite = false → Fits s log before fallback request .share

namespace Fits

variable {fallback fallback' : Option Policy}

theorem cons (h : Fits s log before fallback request rest) (hevent : event.endsWrite s = false) :
    Fits s (event :: log) before fallback request rest := by
  have hclear := Event.endsClear_of_endsWrite hevent
  have hactive (h : ∀ recent, ¬ Active s recent log) (recent : List Event) :
      ¬ Active s recent (event :: log) := fun hactive => by
    rcases hactive.inv with ⟨-, t, q, result, rfl⟩ | ⟨recent', -, hactive, -⟩
    · exact absurd hevent (by simp [Event.endsWrite, Request.isWrite])
    · exact h recent' hactive
  cases h with
  | fill hp => exact .fill (hp.cons hclear)
  | publish hp => exact .publish (hp.cons hclear)
  | empty h => exact .empty (hactive h)
  | advance h hfallback => exact .advance (hactive h) hfallback
  | look hread => exact .look hread
  | classify hread => exact .classify hread
  | share hread => exact .share hread

theorem isWrite_eq (h : Fits s log before fallback request rest) :
    rest.isWrite = request.isWrite := by
  cases h with
  | fill | publish | empty | advance => rfl
  | look hread => exact hread.symm
  | classify hread => exact hread.symm
  | share hread => exact hread.symm

/-- A read that goes on. -/
theorem goes (h : Fits s log before fallback request rest) (hread : request.isWrite = false)
    (hstep : rest.step s t w = (.goes rest', w')) :
    Fits s log before fallback request rest' := by
  cases h with
  | fill | publish | empty | advance => cases hread
  | look =>
    rw [Rest.step] at hstep
    split at hstep
    · split at hstep
      · cases hstep
      · cases hstep
        exact .classify hread
    · cases hstep
      exact .classify hread
  | classify =>
    rw [Rest.step] at hstep
    split at hstep
    · cases hstep
    · cases hstep
      exact .share hread
  | share => cases hstep

/-- A read is not told of what others do to the store. -/
theorem of_read (h : Fits s log before fallback request rest) (hread : request.isWrite = false) :
    Fits s recent before fallback' request rest := by
  cases h with
  | fill | publish | empty | advance => cases hread
  | look => exact .look hread
  | classify => exact .classify hread
  | share => exact .share hread

end Fits

/-- What is known of a call that has just started. -/
theorem fits_begin {fallback : Option Policy}
    (hgeneration : w.generation s = UInt64.ofNat (clears s log)) :
    Fits s (.starts t s request :: log) log fallback request (request.begin s t w).1 := by
  cases request with
  | set q =>
    rw [Request.begin, hgeneration]
    exact .fill ⟨_, rfl, fresh_starts, rfl⟩
  | clear =>
    refine .empty fun recent hactive => ?_
    rcases hactive.inv with ⟨-, _, _, _, hevent⟩ | ⟨_, -, -, hevent⟩
    · cases hevent
    · exact hevent t rfl
  | get =>
    rw [Request.begin, hgeneration]
    exact .look rfl
  | snapshot =>
    rw [Request.begin, hgeneration]
    exact .look rfl

/-- What a process keeps of its log, as far as one store goes. -/
structure Traced (s : StoreId) (log : List Event) (x : Process) : Prop where
  /-- A store that is still to be made has no history. -/
  unmade : x.stores.next ≤ s →
    x.stores.live s = false ∧ (x.stores.store s).fallback = none ∧ clears s log = 0
  generation : x.stores.generation s = UInt64.ofNat (clears s log)
  fallback : ∀ p, (x.stores.store s).fallback = some p → Fresh s p log
  slot : ∀ u p, (s, p) ∈ x.stores.slots u → Stamped s p log
  snapshot : ∀ p, ⟨s, some p⟩ ∈ x.snapshots → Stamped s p log
  ended : ∀ recent t q result older, log = recent ++ .ends t s (.set q) result :: older →
    Sets s q result older
  active : ∀ recent, Active s recent log →
    (x.stores.store s).fallback.isSome = true ∧ clears s recent = 0
  task : ∀ u task, x.task u = some task → task.store = s → task.thread.id = u ∧
    s < x.stores.next ∧ Fits s log (since u log) (x.stores.store s).fallback task.request task.rest
  alone : ∀ u u' task task', x.task u = some task → x.task u' = some task' → task.store = s →
    task'.store = s → task.request.isWrite = true → task'.request.isWrite = true → u = u'

namespace Traced

theorem lt_next (H : Traced s log x) (hs : x.stores.live s = true) : s < x.stores.next := by
  refine Nat.lt_of_not_le fun hle => ?_
  have := (H.unmade hle).1
  rw [hs] at this
  contradiction

theorem start : Traced s [] {} where
  unmade _ := ⟨rfl, rfl, rfl⟩
  generation := rfl
  fallback _ h := nomatch h
  slot _ _ h := nomatch h
  snapshot _ h := nomatch h
  ended recent _ _ _ _ h := by cases recent <;> cases h
  active recent h := by
    obtain ⟨⟨_, _, _, _, h⟩, -⟩ := h
    cases recent <;> cases h
  task _ _ h := nomatch h
  alone _ _ _ _ h := nomatch h

/-- Other stores, and slots that hold what was set, may change. -/
theorem spares (H : Traced s log x) (h : Spares s log x.stores w) : Traced s log (x.onStores w) where
  unmade hle := by
    obtain ⟨hlive, hfallback, hclears⟩ := H.unmade (h.next hle)
    refine ⟨?_, (congrArg Store.fallback h.store).trans hfallback, hclears⟩
    exact Bool.eq_false_iff.mpr fun hlive' => by
      rw [h.live hlive'] at hlive
      contradiction
  generation := (congrArg Store.generation h.store).trans H.generation
  fallback p hp := H.fallback p ((congrArg Store.fallback h.store).symm.trans hp)
  slot u p hmem := (h.slot u p hmem).elim (H.slot u p) id
  snapshot := H.snapshot
  ended := H.ended
  active recent hactive := by
    obtain ⟨hsome, hclears⟩ := H.active recent hactive
    exact ⟨(congrArg (Option.isSome ∘ Store.fallback) h.store).trans hsome, hclears⟩
  task u task htask hs := by
    obtain ⟨hu, hlt, hfits⟩ := H.task u task htask hs
    refine ⟨hu, h.lt_next hlt, ?_⟩
    rw [show (x.onStores w).stores.store s = x.stores.store s from h.store]
    exact hfits
  alone := H.alone

/-- What calls gave back that have set the store, when the log grows by an event. -/
theorem ended_cons (H : Traced s log x)
    (hnew : ∀ t q result, event = .ends t s (.set q) result → Sets s q result log)
    (recent : List Event) (t : Thread) (q : Policy) (result : Option Policy) (older : List Event)
    (heq : event :: log = recent ++ .ends t s (.set q) result :: older) :
    Sets s q result older := by
  cases recent with
  | nil =>
    obtain ⟨hevent, rfl⟩ := List.cons.inj heq
    exact hnew t q result hevent
  | cons first recent => exact H.ended recent t q result older (List.cons.inj heq).2

/-- The log grows by an event that is not the end of a call that writes the store. -/
theorem cons (H : Traced s log x) (hevent : event.endsWrite s = false)
    (hstarts : ∀ t s' request, event = .starts t s' request → x.task t.id = none) :
    Traced s (event :: log) x where
  unmade hle := by
    obtain ⟨hlive, hfallback, hclears⟩ := H.unmade hle
    refine ⟨hlive, hfallback, ?_⟩
    rw [clears_cons, hclears, Event.endsClear_of_endsWrite hevent]
    rfl
  generation := by
    rw [H.generation, clears_cons, Event.endsClear_of_endsWrite hevent]
    rfl
  fallback p hp := (H.fallback p hp).cons (Event.endsClear_of_endsWrite hevent)
  slot u p hmem := (H.slot u p hmem).cons event
  snapshot p hmem := (H.snapshot p hmem).cons event
  ended := H.ended_cons fun t q result heq => by
    rw [heq] at hevent
    simp [Event.endsWrite, Request.isWrite] at hevent
  active recent hactive := by
    rcases hactive.inv with ⟨-, t, q, result, rfl⟩ | ⟨recent', rfl, hactive, -⟩
    · exact absurd hevent (by simp [Event.endsWrite, Request.isWrite])
    · obtain ⟨hsome, hclears⟩ := H.active recent' hactive
      refine ⟨hsome, ?_⟩
      rw [clears_cons, hclears, Event.endsClear_of_endsWrite hevent]
      rfl
  task u task htask hs := by
    obtain ⟨hu, hlt, hfits⟩ := H.task u task htask hs
    refine ⟨hu, hlt, ?_⟩
    have hsince : since u (event :: log) = since u log := by
      cases event with
      | ends => rfl
      | starts t s' request =>
        refine if_neg fun hu' => ?_
        have := hstarts t s' request rfl
        rw [hu', htask] at this
        contradiction
    rw [hsince]
    exact hfits.cons hevent
  alone := H.alone

theorem setTask (H : Traced s log x) {task? : Option Task}
    (hfits : ∀ task, task? = some task → task.store = s → task.thread.id = u ∧
      s < x.stores.next ∧
      Fits s log (since u log) (x.stores.store s).fallback task.request task.rest)
    (hwrite : ∀ task, task? = some task → task.store = s → task.request.isWrite = true →
      (x.setTask u none).Unwritten s) :
    Traced s log (x.setTask u task?) := by
  have hread {u' : ThreadId} {task task' : Task} (h : task? = some task) (hs : task.store = s)
      (hw : task.request.isWrite = true) (hu : u' ≠ u) (h' : x.task u' = some task')
      (hs' : task'.store = s) (hw' : task'.request.isWrite = true) : False := by
    have hother : (x.setTask u none).task u' = some task' := by simpa [Process.setTask, hu] using h'
    rw [hwrite task h hs hw u' task' hother hs'] at hw'
    contradiction
  refine { H with task := fun u' task htask hs => ?_, alone := ?_ }
  · obtain ⟨rfl, hnew⟩ | ⟨-, hold⟩ := Process.task_setTask htask
    · exact hfits task hnew hs
    · exact H.task u' task hold hs
  · intro u₁ u₂ task₁ task₂ h₁ h₂ hs₁ hs₂ hw₁ hw₂
    obtain ⟨rfl, hnew₁⟩ | ⟨hu₁, hold₁⟩ := Process.task_setTask h₁
    · obtain ⟨rfl, -⟩ | ⟨hu₂, hold₂⟩ := Process.task_setTask h₂
      · rfl
      · exact (hread hnew₁ hs₁ hw₁ hu₂ hold₂ hs₂ hw₂).elim
    · obtain ⟨rfl, hnew₂⟩ | ⟨-, hold₂⟩ := Process.task_setTask h₂
      · exact (hread hnew₂ hs₂ hw₂ hu₁ hold₁ hs₁ hw₁).elim
      · exact H.alone u₁ u₂ task₁ task₂ hold₁ hold₂ hs₁ hs₂ hw₁ hw₂

/-- A thread leaves the call that it is inside. -/
theorem leave (H : Traced s log x) (u : ThreadId) : Traced s log (x.setTask u none) :=
  H.setTask (fun _ h => nomatch h) fun _ h => nomatch h

/-- Nobody writes the store but the one who does. -/
theorem unwritten (H : Traced s log x) {task : Task} (htask : x.task u = some task)
    (hs : task.store = s) (hwrite : task.request.isWrite = true) :
    (x.setTask u none).Unwritten s := by
  intro u' task' htask' hs'
  obtain ⟨-, h⟩ | ⟨hu, htask'⟩ := Process.task_setTask htask'
  · cases h
  · exact Bool.eq_false_iff.mpr fun hwrite' =>
      hu (H.alone u u' task task' htask htask' hs hs' hwrite hwrite').symm

theorem keep (H : Traced s log x) (h : s' = s → ∀ p, result = some p → Stamped s p log) :
    Traced s log (x.keep s' request result) := by
  cases request with
  | snapshot =>
    refine { H with snapshot := fun p hmem => ?_ }
    rcases List.mem_cons.mp hmem with heq | hmem
    · obtain ⟨hs, hresult⟩ := Snapshot.mk.inj heq
      exact h hs.symm p hresult.symm
    · exact H.snapshot p hmem
  | _ => exact H

/-! ### Steps of a call that writes the store -/

/-- While nobody writes the store, all calls on it are reads, and fit what others made of it. -/
theorem task_of_unwritten (H : Traced s log x) (hx : x.Unwritten s) {task : Task}
    (htask : x.task u = some task) (hs : task.store = s) (fallback : Option Policy) :
    task.thread.id = u ∧ s < x.stores.next ∧
      Fits s recent (since u log) fallback task.request task.rest := by
  obtain ⟨hu, hlt, hfits⟩ := H.task u task htask hs
  exact ⟨hu, hlt, hfits.of_read (hx u task htask hs)⟩

/-- The last step of a call that sets the store. -/
theorem publish (H : Traced s log x) (hx : x.Unwritten s) (hs : s < x.stores.next)
    (hp : Sets s q (some p) log) :
    Traced s (.ends t s (.set q) (some p) :: log)
      (x.onStores (x.stores.writeFallback s (some p))) := by
  have hstore : (x.stores.writeFallback s (some p)).store s =
      { x.stores.store s with fallback := some p } := store_setStore_self ..
  have hclears : clears s (.ends t s (.set q) (some p) :: log) = clears s log := by
    simp [clears_cons, Event.endsClear]
  refine {
    unmade := fun hle => absurd hle (Nat.not_le.mpr hs)
    generation := ?_
    fallback := fun p' hp' => ?_
    slot := fun u p hmem => (H.slot u p hmem).cons _
    snapshot := fun p hmem => (H.snapshot p hmem).cons _
    ended := H.ended_cons fun t' q' result heq => ?_
    active := fun recent hactive => ⟨by simp [Process.onStores, hstore], ?_⟩
    task := fun u task htask hs => H.task_of_unwritten hx htask hs _
    alone := H.alone }
  · rw [hclears]
    exact (congrArg Store.generation hstore).trans H.generation
  · obtain rfl : p = p' := by
      simpa [Process.onStores, hstore] using hp'
    exact hp.fresh.cons rfl
  · cases heq
    exact hp
  · rcases hactive.inv with ⟨rfl, -⟩ | ⟨recent', rfl, hactive, -⟩
    · rfl
    · simp [clears_cons, Event.endsClear, (H.active recent' hactive).2]

/-- The fallback is emptied after a clearing has started. -/
theorem empty (H : Traced s log x) (hx : x.Unwritten s)
    (hactive : ∀ recent, ¬ Active s recent log) :
    Traced s log (x.onStores (x.stores.writeFallback s none)) := by
  have hstore : (x.stores.writeFallback s none).store s =
      { x.stores.store s with fallback := none } := store_setStore_self ..
  exact { H with
    unmade := fun hle => ⟨(H.unmade hle).1, congrArg Store.fallback hstore, (H.unmade hle).2.2⟩
    generation := (congrArg Store.generation hstore).trans H.generation
    fallback := fun p hp =>
      absurd (hp.symm.trans (congrArg Store.fallback hstore)) (Option.some_ne_none p)
    active := fun recent h => absurd h (hactive recent)
    task := fun u task htask hs => H.task_of_unwritten hx htask hs _ }

/-- The last step of a clearing. -/
theorem advance (H : Traced s log x) (hx : x.Unwritten s) (hs : s < x.stores.next)
    (hactive : ∀ recent, ¬ Active s recent log) (hfallback : (x.stores.store s).fallback = none) :
    Traced s (.ends t s .clear result :: log) (x.onStores (x.stores.advance s)) := by
  have hstore : (x.stores.advance s).store s =
      { x.stores.store s with generation := x.stores.generation s + 1 } := store_setStore_self ..
  refine {
    unmade := fun hle => absurd hle (Nat.not_le.mpr hs)
    generation := ?_
    fallback := fun p hp => ?_
    slot := fun u p hmem => (H.slot u p hmem).cons _
    snapshot := fun p hmem => (H.snapshot p hmem).cons _
    ended := H.ended_cons fun t' q' result heq => nomatch heq
    active := fun recent h => ?_
    task := fun u task htask hs => H.task_of_unwritten hx htask hs _
    alone := H.alone }
  · rw [clears_cons, if_pos (by simp [Event.endsClear]), UInt64.ofNat_add, ← H.generation]
    exact congrArg Store.generation hstore
  · have hnone := (congrArg Store.fallback hstore).trans hfallback
    exact absurd (hp.symm.trans hnone) (Option.some_ne_none p)
  · rcases h.inv with ⟨-, t, q, result, hevent⟩ | ⟨recent', -, h, -⟩
    · cases hevent
    · exact absurd h (hactive recent')

/-! ### Steps -/

/-- A call goes on without a step that other threads see. -/
theorem resume (H : Traced s log x) (htask : x.task u = some ⟨t, s', request, rest⟩)
    (hw : Spares s log x.stores w)
    (hrest : s' = s → Fits s log (since u log) (x.stores.store s).fallback request rest') :
    Traced s log ((x.onStores w).setTask u (some ⟨t, s', request, rest'⟩)) := by
  have H' := H.spares hw
  refine H'.setTask (fun task heq hs => ?_) fun task heq hs hwrite => ?_
  · obtain rfl := Option.some.inj heq
    obtain ⟨hu, hlt, -⟩ := H'.task u _ htask hs
    refine ⟨hu, hlt, ?_⟩
    rw [show (x.onStores w).stores.store s = x.stores.store s from hw.store]
    exact hrest hs
  · obtain rfl := Option.some.inj heq
    exact H'.unwritten htask hs hwrite

theorem goes (H : Traced s log x) (htask : x.task u = some ⟨t, s', request, rest⟩)
    (hstep : rest.step s' t x.stores = (.goes rest', w)) :
    Traced s log ((x.onStores w).setTask u (some ⟨t, s', request, rest'⟩)) := by
  have hfits (hs : s' = s) := (H.task u _ htask hs).2.2
  by_cases hread : s' = s → request.isWrite = false
  · have hw : Spares s log x.stores w :=
      spares_step hstep fun hs => (hfits hs).isWrite_eq.trans (hread hs)
    exact H.resume htask hw fun hs => (hfits hs).goes (hread hs) (hs ▸ hstep)
  · obtain ⟨rfl, hwrite⟩ : s' = s ∧ request.isWrite = true := by simpa using hread
    obtain ⟨hu, hlt, hfits⟩ := H.task u _ htask rfl
    cases hfits with
    | fill hp =>
      cases hstep
      exact H.resume htask (spares_writeSlot fun _ => hp.fresh.stamped) fun _ => .publish hp
    | empty hactive =>
      cases hstep
      -- the thread leaves the call and enters it again, since nobody else may write meanwhile
      have hunwritten := H.unwritten htask rfl rfl
      have H' := (H.leave u).empty hunwritten hactive
      rw [← Process.setTask_setTask _ u none]
      refine H'.setTask (fun task heq _ => ?_) fun task heq _ _ => ?_
      · obtain rfl := Option.some.inj heq
        exact ⟨hu, hlt, .advance hactive (congrArg Store.fallback (store_setStore_self ..))⟩
      · have htwice := Process.setTask_setTask x u none none
        exact fun u' task' htask' =>
          hunwritten u' task' ((congrArg (Process.task · u') htwice).symm.trans htask')
    | publish | advance => cases hstep
    | look h | classify h | share h =>
      rw [h] at hwrite
      contradiction

/-- What a read is given comes from its slot, which was as new as the generation that it has read, or
from the fallback. -/
theorem read_origin (H : Traced s log x) (htask : x.task u = some ⟨t, s, request, rest⟩)
    (hread : request.isWrite = false) (hstep : rest.step s t x.stores = (.ends (some p), w)) :
    Stamped s p log ∧ p.generation = UInt64.ofNat (clears s (since u log)) ∨ Fresh s p log := by
  obtain ⟨hu, -, hfits⟩ := H.task u _ htask rfl
  cases hfits with
  | fill | publish | empty | advance => cases hread
  | look =>
    rw [Rest.step] at hstep
    split at hstep
    · next p' hslot =>
      split at hstep
      · next hgen =>
        cases hstep
        exact .inl ⟨H.slot _ p (mem_of_slot? hslot), hgen⟩
      · cases hstep
    · cases hstep
  | classify =>
    rw [Rest.step] at hstep
    split at hstep
    · cases hstep
    · cases hstep
  | share =>
    obtain ⟨hfallback, -⟩ := Prod.mk.inj hstep
    exact .inr (H.fallback p (Progress.ends.inj hfallback))

theorem ends (H : Traced s log x) (htask : x.task u = some ⟨t, s', request, rest⟩)
    (hstep : rest.step s' t x.stores = (.ends result, w)) :
    Traced s (.ends t s' request result :: log)
      (((x.onStores w).setTask u none).keep s' request result) := by
  have hfits (hs : s' = s) := (H.task u _ htask hs).2.2
  by_cases hread : s' = s → request.isWrite = false
  · have hw : Spares s log x.stores w :=
      spares_step hstep fun hs => (hfits hs).isWrite_eq.trans (hread hs)
    have hevent : (Event.ends t s' request result).endsWrite s = false := by
      by_cases hs : s' = s
      · simp [Event.endsWrite, hread hs]
      · simp [Event.endsWrite, hs]
    have H' := ((H.spares hw).leave u).cons hevent fun _ _ _ h => by cases h
    refine H'.keep fun hs p hp => Stamped.cons _ ?_
    subst hs hp
    exact (H.read_origin htask (hread rfl) hstep).elim And.left Fresh.stamped
  · obtain ⟨rfl, hwrite⟩ : s' = s ∧ request.isWrite = true := by simpa using hread
    obtain ⟨-, hlt, hfits⟩ := H.task u _ htask rfl
    have hunwritten := H.unwritten htask rfl hwrite
    cases hfits with
    | publish hp =>
      cases hstep
      exact (H.leave u).publish hunwritten hlt hp
    | advance hactive hfallback =>
      cases hstep
      exact (H.leave u).advance hunwritten hlt hactive hfallback
    | fill | empty => cases hstep
    | look h | classify h | share h =>
      rw [h] at hwrite
      contradiction

theorem starts (H : Traced s log x) (hlive : x.stores.live s' = true) (hfree : x.task t.id = none)
    (hwrite : request.isWrite = true → x.Unwritten s') :
    Traced s (.starts t s' request :: log) ((x.onStores (request.begin s' t x.stores).2).setTask t.id
      (some ⟨t, s', request, (request.begin s' t x.stores).1⟩)) := by
  have hw : Spares s log x.stores (request.begin s' t x.stores).2 := spares_begin
  have hevent : (Event.starts t s' request).endsWrite s = false := rfl
  have H' := (H.spares hw).cons hevent fun _ _ _ h => by cases h; exact hfree
  refine H'.setTask (fun task heq hs => ?_) fun task heq hs hwrites => ?_
  · obtain rfl := Option.some.inj heq
    obtain rfl : s' = s := hs
    have hsince : since t.id (.starts t s' request :: log) = log := if_pos rfl
    rw [hsince]
    exact ⟨rfl, hw.lt_next (H.lt_next hlive), fits_begin H.generation⟩
  · obtain rfl := Option.some.inj heq
    obtain rfl : s' = s := hs
    intro u task' htask'
    obtain ⟨-, h⟩ | ⟨-, htask'⟩ := Process.task_setTask htask'
    · cases h
    · exact hwrite hwrites u task' htask'

/-- A new store has no history. -/
theorem create (H : Traced x.stores.next log x) (harness : Classifier) :
    Traced x.stores.next log (x.onStores (x.stores.create harness).2) := by
  obtain ⟨-, hfallback, hclears⟩ := H.unmade (Nat.le_refl _)
  have hstore : (x.stores.create harness).2.store x.stores.next = { harness } := by
    simp [Stores.create, setStore]
  exact { H with
    unmade := fun hle => absurd hle (Nat.not_succ_le_self _)
    generation := by
      rw [hclears]
      exact congrArg Store.generation hstore
    fallback := fun p hp =>
      absurd (hp.symm.trans (congrArg Store.fallback hstore)) (Option.some_ne_none p)
    active := fun recent h => by
      have hsome := (H.active recent h).1
      rw [hfallback] at hsome
      contradiction
    task := fun u task htask hs =>
      absurd (H.task u task htask hs).2.1 (Nat.lt_irrefl _) }

/-- What every step keeps. -/
theorem step (H : Traced s log x) {events : List Event} (h : Step x events y) :
    Traced s (events ++ log) y := by
  cases h with
  | create harness =>
    by_cases hs : s = x.stores.next
    · subst hs
      exact H.create harness
    · exact H.spares (spares_create hs harness)
  | attach hmem _ => exact H.spares (spares_attach fun p hsnap => H.snapshot p (hsnap ▸ hmem))
  | drop => exact H.spares spares_drop
  | starts hlive hfree hwrite => exact H.starts hlive hfree hwrite
  | goes htask hstep => exact H.goes htask hstep
  | ends htask hstep => exact H.ends htask hstep

end Traced

theorem Reaches.traced (run : Reaches log x) (s : StoreId) : Traced s log x := by
  induction run with
  | start => exact .start
  | step _ h ih => exact ih.step h

end Cordon.Interleaving
